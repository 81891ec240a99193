/-
An open face over time. What a use answers depends on the face alone, and of the face a use changes at most the selected
size (`Session.step_eq`). So after any history the face is the one that was opened, at the last size that the history
selected (`Session.face_run`), and `history_is_forgotten` follows: rendering and looking up characters answer as on the
fresh face, and rasterising as on the fresh face at that last size.
-/
import GlyphImage.Font.Open
import Mathlib

namespace GlyphImage

/-! ## Faces at a size -/

namespace OpenFace

/-- the face at another size; a bitmap font has only one -/
def resized : OpenFace → UInt32 → OpenFace
  | pff2 font, _ => pff2 font
  | trueType face, sizePx => trueType { face with sizePx }

/-- what is noted when a size is selected -/
def sizeWarnings : OpenFace → UInt32 → List Pff2.Warning
  | pff2 font, sizePx =>
    if sizePx = font.pointSize.toUInt32 then [] else [.sizeMismatch font.name font.pointSize sizePx]
  | trueType _, _ => []

/-- what rendering a character at the selected size gives -/
def draw (face : OpenFace) (character : Char) : Except RenderError RenderedGlyph :=
  match face.glyphIndex character with
  | none => .error (.glyphNotFound character)
  | some index => RenderedGlyph.ofRaster character (face.rasterize index)

/-- what a use of the face answers -/
def answer (face : OpenFace) : Session.Step → Session.Answer
  | .setPixelSize sizePx => .sizeSet (if sizePx = 0 then .error (.invalidPixelSize sizePx) else .ok ())
  | .glyphIndex character => .index (face.glyphIndex character)
  | .rasterize index => .raster (face.rasterize index)
  | .render character sizePx =>
    .rendered (if sizePx = 0 then .error (.setSize sizePx (.invalidPixelSize sizePx))
      else (face.resized sizePx).draw character)

variable (face : OpenFace) (a b : UInt32)

theorem setPixelSize_eq (sizePx : UInt32) :
    face.setPixelSize sizePx =
      if sizePx = 0 then .error (.invalidPixelSize sizePx) else .ok (face.resized sizePx, face.sizeWarnings sizePx) := by
  cases face with
  | pff2 font =>
    simp only [setPixelSize, Pff2.Font.setPixelSize, resized, sizeWarnings]
    split_ifs <;> rfl
  | trueType face =>
    simp only [setPixelSize, TrueType.Face.setPixelSize, resized, sizeWarnings]
    split_ifs <;> rfl

@[simp] theorem resized_resized : (face.resized a).resized b = face.resized b := by
  cases face <;> rfl

@[simp] theorem glyphIndex_resized (character : Char) :
    (face.resized a).glyphIndex character = face.glyphIndex character := by
  cases face <;> rfl

@[simp] theorem resized_pff2 (font : Pff2.Font) : (pff2 font).resized a = pff2 font := rfl

end OpenFace

/-! ## Steps -/

namespace Session

/-- the size that a use selects; 0 is refused -/
def Step.selected? : Step → Option UInt32
  | setPixelSize sizePx => if sizePx = 0 then none else some sizePx
  | render _ sizePx => if sizePx = 0 then none else some sizePx
  | glyphIndex _ => none
  | rasterize _ => none

theorem Step.ne_zero_of_selected? {use : Step} {sizePx : UInt32} (h : use.selected? = some sizePx) : sizePx ≠ 0 := by
  cases use with
  | setPixelSize n =>
    obtain ⟨hn, rfl⟩ : n ≠ 0 ∧ n = sizePx := by simpa [selected?] using h
    exact hn
  | render _ n =>
    obtain ⟨hn, rfl⟩ : n ≠ 0 ∧ n = sizePx := by simpa [selected?] using h
    exact hn
  | glyphIndex _ => cases h
  | rasterize _ => cases h

/-- the last size that a history selects -/
def lastSize? (steps : List Step) : Option UInt32 := (steps.filterMap Step.selected?).getLast?

theorem setPixelSize_eq (sizePx : UInt32) (s : Session) :
    setPixelSize sizePx s =
      if sizePx = 0 then (.error (.invalidPixelSize sizePx), s)
      else (.ok (), ⟨s.face.resized sizePx, s.warnings ++ s.face.sizeWarnings sizePx⟩) := by
  simp only [setPixelSize, OpenFace.setPixelSize_eq]
  split_ifs <;> rfl

/-- **Rendering on an open face**: a size of 0 is refused and changes nothing, any other is selected and noted first. -/
theorem render_eq (job : Job) (s : Session) :
    asFace.render job s =
      if job.sizePx = 0 then (.error (.setSize job.sizePx (.invalidPixelSize job.sizePx)), s)
      else ((s.face.resized job.sizePx).draw job.character,
        ⟨s.face.resized job.sizePx, s.warnings ++ s.face.sizeWarnings job.sizePx⟩) := by
  have hset : asFace.setPixelSize job.sizePx s = _ := setPixelSize_eq job.sizePx s
  unfold Face.render
  simp only [bind, StateT.bind, hset]
  split_ifs with hsize
  · rfl
  · unfold OpenFace.draw
    simp only [StateT.bind, asFace]
    cases (s.face.resized job.sizePx).glyphIndex job.character with
    | none => rfl
    | some index => rfl

/-- **One use of a face**: the answer is the face's own, and at most its size changes and warnings are added. -/
theorem step_eq (use : Step) (s : Session) :
    step use s = (s.face.answer use, ⟨use.selected?.elim s.face s.face.resized,
      s.warnings ++ use.selected?.toList.flatMap s.face.sizeWarnings⟩) := by
  cases use with
  | setPixelSize sizePx =>
    have hset : step (.setPixelSize sizePx) s = (setPixelSize sizePx s).map Answer.sizeSet id := rfl
    rw [hset, setPixelSize_eq]
    unfold OpenFace.answer Step.selected?
    by_cases hsize : sizePx = 0
    · simp [hsize]
    · simp [hsize]
  | glyphIndex character =>
    have hsame : step (.glyphIndex character) s = (.index (s.face.glyphIndex character), s) := rfl
    simp [hsame, OpenFace.answer, Step.selected?]
  | rasterize index =>
    have hsame : step (.rasterize index) s = (.raster (s.face.rasterize index), s) := rfl
    simp [hsame, OpenFace.answer, Step.selected?]
  | render character sizePx =>
    have hrender : step (.render character sizePx) s =
        (asFace.render (Job.new "" character sizePx) s).map Answer.rendered id := rfl
    rw [hrender, render_eq]
    unfold OpenFace.answer Step.selected? Job.new
    by_cases hsize : sizePx = 0
    · simp [hsize]
    · simp [hsize]

/-! ## Histories -/

variable (face : OpenFace) (s : Session) (steps : List Step)

theorem run_append_singleton (use : Step) : s.run (steps ++ [use]) = (step use (s.run steps)).2 := by
  simp [run, List.foldl_append]

theorem lastSize?_append_singleton (use : Step) : lastSize? (steps ++ [use]) = use.selected?.or (lastSize? steps) := by
  simp only [lastSize?, List.filterMap_append, List.getLast?_append]
  cases hselected : use.selected? <;> simp [hselected]

/-- **After any history** the face is the old one, at the last size selected since if there was one. -/
theorem face_run : (s.run steps).face = (lastSize? steps).elim s.face s.face.resized := by
  -- the last use decides which size counts, so the history is taken apart from its end
  induction steps using List.reverseRecOn with
  | nil => rfl
  | append_singleton steps use ih =>
    rw [run_append_singleton, lastSize?_append_singleton, step_eq, ih]
    cases use.selected? with
    | none => rfl
    | some sizePx =>
      cases lastSize? steps with
      | none => rfl
      | some earlier => simp

/-- the fresh face on which only the last size of a history is selected -/
theorem face_run_lastSize :
    (run { face } ((lastSize? steps).toList.map Step.setPixelSize)).face = (lastSize? steps).elim face face.resized := by
  rw [face_run]
  cases hlast : lastSize? steps with
  | none => rfl
  | some sizePx =>
    obtain ⟨use, -, huse⟩ := List.mem_filterMap.1 (List.mem_of_getLast? hlast)
    simp [lastSize?, Step.selected?, Step.ne_zero_of_selected? huse]

/-! ## Answers -/

/-- **History is forgotten.** After any history of a face, failed uses included, rendering and looking up a character
answer as on the fresh face, and rasterising answers as on the fresh face at the last size that the history selected, or
at none if it selected none. A size of 0 is always refused and leaves no trace. A bitmap font rasterises and renders
alike at every size; only what is noted differs, and that is the mismatch of the size alone. -/
theorem history_is_forgotten (face : OpenFace) (steps : List Step) :
    (∀ character sizePx, (step (.render character sizePx) (run { face } steps)).1 =
      (step (.render character sizePx) { face }).1) ∧
    (∀ character, (step (.glyphIndex character) (run { face } steps)).1 = (step (.glyphIndex character) { face }).1) ∧
    (∀ index, (step (.rasterize index) (run { face } steps)).1 =
      (step (.rasterize index) (run { face } ((lastSize? steps).toList.map .setPixelSize))).1) ∧
    (step (.setPixelSize 0) (run { face } steps) =
        (.sizeSet (.error (.invalidPixelSize 0)), run { face } steps) ∧
      ∀ later, run { face } (steps ++ .setPixelSize 0 :: later) = run { face } (steps ++ later)) ∧
    ∀ font, face = .pff2 font →
      (∀ index, (step (.rasterize index) (run { face } steps)).1 = .raster (font.rasterize index)) ∧
      ∀ character sizePx sizePx', sizePx ≠ 0 → sizePx' ≠ 0 →
        (step (.render character sizePx) (run { face } steps)).1 =
          (step (.render character sizePx') (run { face } steps)).1 ∧
        (step (.render character sizePx) (run { face } steps)).2 =
          ⟨face, (run { face } steps).warnings ++
            if sizePx = font.pointSize.toUInt32 then [] else [.sizeMismatch font.name font.pointSize sizePx]⟩ := by
  have hface := face_run { face } steps
  have hrefused : step (.setPixelSize 0) (run { face } steps) =
      (.sizeSet (.error (.invalidPixelSize 0)), run { face } steps) := by
    rw [step_eq]
    simp [OpenFace.answer, Step.selected?]
  refine ⟨fun character sizePx => ?_, fun character => ?_, fun index => ?_, ⟨hrefused, fun later => ?_⟩, ?_⟩
  · rw [step_eq, step_eq, hface]
    cases lastSize? steps <;> simp [OpenFace.answer]
  · rw [step_eq, step_eq, hface]
    cases lastSize? steps <;> simp [OpenFace.answer]
  · rw [step_eq, step_eq, hface, face_run_lastSize, OpenFace.answer]
  · unfold run at hrefused ⊢
    rw [List.foldl_append, List.foldl_append, List.foldl_cons, hrefused]
  · rintro font rfl
    have hsame : (run { face := .pff2 font } steps).face = .pff2 font := by
      rw [hface]
      cases lastSize? steps <;> rfl
    refine ⟨fun index => ?_, fun character sizePx sizePx' hsize hsize' => ⟨?_, ?_⟩⟩
    · rw [step_eq, hsame]
      rfl
    · rw [step_eq, step_eq, hsame]
      simp [OpenFace.answer, hsize, hsize']
    · rw [step_eq, hsame]
      simp [Step.selected?, hsize, OpenFace.sizeWarnings]

/-- a failed rendering selects its size, a refused size does not: an outline font goes on at 20 pixels, and a bitmap font
renders at 16 pixels what it renders at 12 -/
theorem history_is_forgotten_after_failures :
    let history : List Step := [.setPixelSize 12, .render 'B' 20, .setPixelSize 0, .glyphIndex 'A', .render 'A' 0]
    let outlines : OpenFace := .trueType { font := ⟨1000, 2, false, 0, [], none, none, none⟩ }
    let font : Pff2.Font := ⟨⟨"T", "", 12, "", 8, 8, 6, 2⟩, #[⟨65, 3, 2, 1, -1, 4, #[0xB8]⟩]⟩
    let bits : OpenFace := .pff2 font
    (step (.rasterize ⟨1, by decide⟩) (run { face := outlines } history)).1 =
      (step (.rasterize ⟨1, by decide⟩) (run { face := outlines } [.setPixelSize 20])).1 ∧
    (16 : UInt32) ≠ 0 ∧ (12 : UInt32) ≠ 0 ∧ bits = .pff2 font ∧
    (step (.render 'A' 16) (run { face := bits } history)).1 =
      (step (.render 'A' 12) (run { face := bits } history)).1 := by
  intro history outlines font bits
  obtain ⟨-, -, hraster, -, -⟩ := history_is_forgotten outlines history
  obtain ⟨-, -, -, -, hbits⟩ := history_is_forgotten bits history
  have hlast : lastSize? history = some 20 := by decide
  refine ⟨?_, by decide, by decide, rfl, ?_⟩
  · rw [hraster, hlast]
    rfl
  · exact ((hbits font rfl).2 'A' 16 12 (by decide) (by decide)).1

end Session

end GlyphImage
