/-
Rendering on any face. Nothing is assumed of the face: its answers may be any and may depend on a state that its
operations change. `Face.Course` lists how a rendering can go, with the calls that it makes; it goes in one of these ways
(`Face.exists_course`) and in no other (`Face.Course.unique`), and `rendering_follows_its_course` says what follows for
the calls and the outcome. The metrics are passed on as the face tells them, and want of memory is the same error whether
the face or the canvas meets it.
-/
import GlyphImage.Render
import Mathlib

namespace GlyphImage

/-! ## Outcomes -/

/-- what becomes of a face's answer about a character's glyph -/
inductive RenderedGlyph.Drawn (character : Char) :
    Except FontError RasterGlyph → Except RenderError RenderedGlyph → Prop where
  /-- the face has no memory for the bitmap -/
  | bitmapRefused (e : AllocationError) : Drawn character (.error (.allocation e)) (.error (.allocation e))
  /-- the face fails otherwise -/
  | failed (cause : FontError) (hcause : ∀ e, cause ≠ .allocation e) :
      Drawn character (.error cause) (.error (.rasterize character cause))
  /-- there is no memory for the canvas -/
  | canvasRefused (glyph : RasterGlyph) (e : AllocationError) (hframing : Canvas.framing glyph.bitmap = .error e) :
      Drawn character (.ok glyph) (.error (.allocation e))
  | framed (glyph : RasterGlyph) (canvas : Canvas) (hframing : Canvas.framing glyph.bitmap = .ok canvas) :
      Drawn character (.ok glyph) (.ok ⟨character, glyph.metrics, canvas⟩)

theorem RenderedGlyph.drawn_ofRaster (character : Char) (answer : Except FontError RasterGlyph) :
    Drawn character answer (ofRaster character answer) := by
  cases answer with
  | error cause =>
    cases cause with
    | allocation e => exact .bitmapRefused e
    | _ => exact .failed _ nofun
  | ok glyph =>
    cases hframing : Canvas.framing glyph.bitmap with
    | error e =>
      simp only [ofRaster, hframing]
      exact .canvasRefused glyph e hframing
    | ok canvas =>
      simp only [ofRaster, hframing]
      exact .framed glyph canvas hframing

theorem RenderedGlyph.Drawn.eq_ofRaster {character : Char} {answer : Except FontError RasterGlyph}
    {outcome : Except RenderError RenderedGlyph} (h : Drawn character answer outcome) :
    ofRaster character answer = outcome := by
  cases h with
  | bitmapRefused e => rfl
  | failed cause hcause =>
    cases cause with
    | allocation e => exact absurd rfl (hcause e)
    | _ => rfl
  | canvasRefused glyph e hframing => simp only [ofRaster, hframing]
  | framed glyph canvas hframing => simp only [ofRaster, hframing]

/-! ## Courses -/

namespace Face

variable {σ : Type} (face : Face (StateM σ)) (job : Job)

/-- the ways a rendering can go from a state of the face: the calls in order, the outcome and the state afterwards. Each
call meets the face in the state that the call before has left. -/
inductive Course (s : σ) : List Call → Except RenderError RenderedGlyph → σ → Prop where
  | sizeRefused {cause : FontError} {s₁ : σ} (hsize : face.setPixelSize job.sizePx s = (.error cause, s₁)) :
      Course s [.setPixelSize job.sizePx] (.error (.setSize job.sizePx cause)) s₁
  | notFound {s₁ s₂ : σ} (hsize : face.setPixelSize job.sizePx s = (.ok (), s₁))
      (hindex : face.glyphIndex job.character s₁ = (none, s₂)) :
      Course s [.setPixelSize job.sizePx, .glyphIndex job.character] (.error (.glyphNotFound job.character)) s₂
  | asked {s₁ s₂ s₃ : σ} {index : GlyphIndex} {answer : Except FontError RasterGlyph}
      {outcome : Except RenderError RenderedGlyph} (hsize : face.setPixelSize job.sizePx s = (.ok (), s₁))
      (hindex : face.glyphIndex job.character s₁ = (some index, s₂))
      (hraster : face.rasterize index s₂ = (answer, s₃)) (hdrawn : RenderedGlyph.Drawn job.character answer outcome) :
      Course s [.setPixelSize job.sizePx, .glyphIndex job.character, .rasterize index] outcome s₃

variable {face job} {s s' : σ} {calls : List Call} {outcome : Except RenderError RenderedGlyph}

/-- a call is noted, then made -/
theorem note_run {α : Type} (call : Call) (action : StateM σ α) (calls : List Call) (s : σ) :
    note call action calls s = (((action s).1, calls ++ [call]), (action s).2) := rfl

theorem Course.run_eq (h : face.Course job s calls outcome s') :
    (face.traced.render job).run [] s = ((outcome, calls), s') := by
  unfold render traced
  cases h with
  | sizeRefused hsize =>
    simp only [bind, StateT.run, StateT.bind, note_run, hsize]
    rfl
  | notFound hsize hindex =>
    simp only [bind, StateT.run, StateT.bind, note_run, hsize, hindex]
    rfl
  | asked hsize hindex hraster hdrawn =>
    simp only [bind, StateT.run, StateT.bind, note_run, hsize, hindex, Functor.map, StateT.map, hraster, hdrawn.eq_ofRaster]
    rfl

theorem Course.render_eq (h : face.Course job s calls outcome s') : face.render job s = (outcome, s') := by
  unfold render
  cases h with
  | sizeRefused hsize =>
    simp only [bind, StateT.bind, hsize]
    rfl
  | notFound hsize hindex =>
    simp only [bind, StateT.bind, hsize, hindex]
    rfl
  | asked hsize hindex hraster hdrawn =>
    simp only [bind, StateT.bind, hsize, hindex, Functor.map, StateT.map, hraster, hdrawn.eq_ofRaster]
    rfl

/-- every rendering goes in one of the ways -/
theorem exists_course (face : Face (StateM σ)) (job : Job) (s : σ) :
    ∃ calls outcome s', face.Course job s calls outcome s' := by
  rcases hsize : face.setPixelSize job.sizePx s with ⟨cause | ⟨⟩, s₁⟩
  · exact ⟨_, _, _, .sizeRefused hsize⟩
  · rcases hindex : face.glyphIndex job.character s₁ with ⟨_ | index, s₂⟩
    · exact ⟨_, _, _, .notFound hsize hindex⟩
    · exact ⟨_, _, _, .asked hsize hindex rfl (RenderedGlyph.drawn_ofRaster _ _)⟩

theorem Course.unique {calls' : List Call} {outcome' : Except RenderError RenderedGlyph} {s'' : σ}
    (h : face.Course job s calls outcome s') (h' : face.Course job s calls' outcome' s'') :
    calls' = calls ∧ outcome' = outcome ∧ s'' = s' := by
  cases h.run_eq.symm.trans h'.run_eq
  exact ⟨rfl, rfl, rfl⟩

/-! ## Calls -/

namespace Course

variable (h : face.Course job s calls outcome s')
include h

/-- the size is selected first, and no size later -/
theorem exists_later : ∃ later, calls = .setPixelSize job.sizePx :: later ∧ ∀ sizePx, .setPixelSize sizePx ∉ later := by
  cases h <;> exact ⟨_, rfl, by simp⟩

theorem nodup : calls.Nodup := by
  cases h <;> simp

theorem mem_glyphIndex_iff (character : Char) :
    .glyphIndex character ∈ calls ↔
      character = job.character ∧ ∃ s₁, face.setPixelSize job.sizePx s = (.ok (), s₁) := by
  constructor
  · intro hmem
    cases h with
    | sizeRefused _ => simp at hmem
    | notFound hsize _ => exact ⟨by simpa using hmem, _, hsize⟩
    | asked hsize _ _ _ => exact ⟨by simpa using hmem, _, hsize⟩
  · rintro ⟨rfl, s₁, haccepted⟩
    cases h with
    | sizeRefused hsize => cases hsize.symm.trans haccepted
    | notFound _ _ => simp
    | asked _ _ _ _ => simp

theorem mem_rasterize_iff (index : GlyphIndex) :
    .rasterize index ∈ calls ↔
      ∃ s₁ s₂, face.setPixelSize job.sizePx s = (.ok (), s₁) ∧
        face.glyphIndex job.character s₁ = (some index, s₂) := by
  constructor
  · intro hmem
    cases h with
    | sizeRefused _ => simp at hmem
    | notFound _ _ => simp at hmem
    | asked hsize hindex _ _ =>
      obtain rfl : index = _ := by simpa using hmem
      exact ⟨_, _, hsize, hindex⟩
  · rintro ⟨s₁, s₂, haccepted, hfound⟩
    obtain ⟨rfl, -, -⟩ := Course.unique (.asked haccepted hfound rfl (RenderedGlyph.drawn_ofRaster _ _)) h
    simp

/-- want of memory is told as such, and nothing else is -/
theorem eq_allocation_iff (e : AllocationError) :
    outcome = .error (.allocation e) ↔
      ∃ s₁ s₂ s₃ index answer, face.setPixelSize job.sizePx s = (.ok (), s₁) ∧
        face.glyphIndex job.character s₁ = (some index, s₂) ∧ face.rasterize index s₂ = (answer, s₃) ∧
        (answer = .error (.allocation e) ∨
          ∃ glyph, answer = .ok glyph ∧ Canvas.framing glyph.bitmap = .error e) := by
  constructor
  · rintro rfl
    cases h with
    | asked hsize hindex hraster hdrawn =>
      refine ⟨_, _, _, _, _, hsize, hindex, hraster, ?_⟩
      cases hdrawn with
      | bitmapRefused => exact Or.inl rfl
      | canvasRefused glyph _ hframing => exact Or.inr ⟨glyph, rfl, hframing⟩
  · rintro ⟨s₁, s₂, s₃, index, answer, haccepted, hfound, hanswer, hrefused⟩
    obtain ⟨-, rfl, -⟩ := Course.unique (.asked haccepted hfound hanswer (RenderedGlyph.drawn_ofRaster _ _)) h
    rcases hrefused with rfl | ⟨glyph, rfl, hframing⟩
    · rfl
    · simp only [RenderedGlyph.ofRaster, hframing]

end Course

/-- **Rendering on any face, in any state.** It goes in one of the ways of `Course` and in no other, and noting the calls
changes nothing about it. The size is selected once and first; the character is looked up once just if the size was
accepted; a glyph is rasterised once, under the index that was answered, just if there was one; no other call is made. The
error is one of memory just if the face or the canvas had none. Where the font came from and where the image goes play no
part. -/
theorem rendering_follows_its_course (face : Face (StateM σ)) (job : Job) (s : σ) :
    ∃ calls outcome s',
      (face.traced.render job).run [] s = ((outcome, calls), s') ∧ face.render job s = (outcome, s') ∧
      face.Course job s calls outcome s' ∧
      (∀ calls' outcome' s'', face.Course job s calls' outcome' s'' → calls' = calls ∧ outcome' = outcome ∧ s'' = s') ∧
      (∃ later, calls = .setPixelSize job.sizePx :: later ∧ ∀ sizePx, .setPixelSize sizePx ∉ later) ∧ calls.Nodup ∧
      (∀ character, .glyphIndex character ∈ calls ↔
        character = job.character ∧ ∃ s₁, face.setPixelSize job.sizePx s = (.ok (), s₁)) ∧
      (∀ index, .rasterize index ∈ calls ↔
        ∃ s₁ s₂, face.setPixelSize job.sizePx s = (.ok (), s₁) ∧
          face.glyphIndex job.character s₁ = (some index, s₂)) ∧
      (∀ e, outcome = .error (.allocation e) ↔
        ∃ s₁ s₂ s₃ index answer, face.setPixelSize job.sizePx s = (.ok (), s₁) ∧
          face.glyphIndex job.character s₁ = (some index, s₂) ∧ face.rasterize index s₂ = (answer, s₃) ∧
          (answer = .error (.allocation e) ∨
            ∃ glyph, answer = .ok glyph ∧ Canvas.framing glyph.bitmap = .error e)) ∧
      ∀ fontPath output, face.traced.render { job with fontPath, output } = face.traced.render job := by
  obtain ⟨calls, outcome, s', hcourse⟩ := exists_course face job s
  refine ⟨calls, outcome, s', hcourse.run_eq, hcourse.render_eq, hcourse, ?_, hcourse.exists_later, hcourse.nodup,
    hcourse.mem_glyphIndex_iff, hcourse.mem_rasterize_iff, hcourse.eq_allocation_iff, ?_⟩
  · intro calls' outcome' s'' hcourse'
    exact hcourse.unique hcourse'
  · intro fontPath output
    rfl

/-- a face that counts its calls and has no memory for the glyph of 'A'; for that of 'B' it has a bitmap so wide that there
is none for the canvas. Both fail alike, after three calls. -/
theorem rendering_follows_its_course_without_memory :
    let wide : Coverage := ⟨sizeLimit - 1, 0, sizeLimit - 1, #[], by decide, by decide⟩
    let face : Face (StateM Nat) := {
      setPixelSize := fun _ count => (.ok (), count + 1)
      glyphIndex := fun character count => (GlyphIndex.ofUInt32? (character.val - 64), count + 1)
      rasterize := fun index count =>
        (if index.val = 1 then .error (.allocation .reserve) else .ok ⟨wide, ⟨7, 7, 0, 0, 0⟩⟩, count + 1) }
    (face.traced.render ⟨"a.pf2", 'A', 12, "a.ppm"⟩).run [] 0 =
      ((.error (.allocation .reserve), [.setPixelSize 12, .glyphIndex 'A', .rasterize ⟨1, by decide⟩]), 3) ∧
    (face.traced.render ⟨"a.pf2", 'B', 12, "a.ppm"⟩).run [] 0 =
      ((.error (.allocation (.overflow (sizeLimit - 1) 0)),
        [.setPixelSize 12, .glyphIndex 'B', .rasterize ⟨2, by decide⟩]), 3) := by
  intro wide face
  constructor
  · obtain ⟨calls, outcome, s', hrun, -, -, hunique, -⟩ :=
      rendering_follows_its_course face ⟨"a.pf2", 'A', 12, "a.ppm"⟩ 0
    obtain ⟨rfl, rfl, rfl⟩ := hunique _ _ _ (.asked rfl rfl rfl (.bitmapRefused .reserve))
    exact hrun
  · obtain ⟨calls, outcome, s', hrun, -, -, hunique, -⟩ :=
      rendering_follows_its_course face ⟨"a.pf2", 'B', 12, "a.ppm"⟩ 0
    obtain ⟨rfl, rfl, rfl⟩ := hunique _ _ _ (.asked rfl rfl rfl (.canvasRefused ⟨wide, _⟩ _ rfl))
    exact hrun

end Face

end GlyphImage
