/-
Opening a font file. The first bytes alone decide the format (`openFont_eq`), each format has errors of its own
(`openFont_error`), and a file is opened as a bitmap font just if it can be parsed and used (`openFont_eq_pff2_iff`).
`opened_bitmap_font_renders`: what opening checks is all that rendering needs, so that with an opened bitmap font a
character is drawn or not found, and nothing else goes wrong.
-/
import GlyphImage.Proofs.Font.Session
import GlyphImage.Proofs.Pff2.Face
import GlyphImage.Proofs.Pff2.Faults
import GlyphImage.Proofs.Pff2.GlyphTable
import GlyphImage.Proofs.Pff2.Image
import GlyphImage.Proofs.Pff2.RoundTrip

namespace GlyphImage

/-! ## Formats -/

/-- the file starts as bitmap fonts do: with all twelve bytes -/
def StartsAsBitmaps (file : List UInt8) : Prop := Utf8.encode "FILE\x00\x00\x00\x04PFF2" <+: file

/-- the file starts as outline fonts do: with the number of their first version or with one of three names -/
def StartsAsOutlines (file : List UInt8) : Prop :=
  [0, 1, 0, 0] <+: file ∨ Utf8.encode "true" <+: file ∨ Utf8.encode "OTTO" <+: file ∨ Utf8.encode "ttcf" <+: file

instance (file : List UInt8) : Decidable (StartsAsBitmaps file) := inferInstanceAs (Decidable (_ <+: _))

instance (file : List UInt8) : Decidable (StartsAsOutlines file) := inferInstanceAs (Decidable (_ ∨ _))

theorem startsAsBitmaps_iff {file : List UInt8} : StartsAsBitmaps file ↔ Pff2.magic.isPrefixOf file = true := by
  rw [List.isPrefixOf_iff_prefix]
  rfl

theorem startsAsOutlines_iff {file : List UInt8} : StartsAsOutlines file ↔ file.take 4 ∈ FontFormat.trueTypeTags := by
  have hmember : file.take 4 ∈ FontFormat.trueTypeTags ↔ ∃ tag ∈ FontFormat.trueTypeTags, tag = file.take 4 := by simp
  have hlength : ∀ tag ∈ FontFormat.trueTypeTags, tag.length = 4 := by decide
  rw [hmember]
  constructor
  · intro h
    have hsome : ∃ tag ∈ FontFormat.trueTypeTags, tag <+: file := by
      rcases h with h | h | h | h
      · exact ⟨_, by decide, h⟩
      · exact ⟨_, by decide, h⟩
      · exact ⟨_, by decide, h⟩
      · exact ⟨_, by decide, h⟩
    obtain ⟨tag, htag, hprefix⟩ := hsome
    refine ⟨tag, htag, ?_⟩
    rw [List.prefix_iff_eq_take, hlength tag htag] at hprefix
    exact hprefix
  · rintro ⟨tag, htag, heq⟩
    have hprefix : tag <+: file := heq ▸ List.take_prefix 4 file
    simp only [FontFormat.trueTypeTags, List.mem_cons, List.not_mem_nil, or_false] at htag
    rcases htag with rfl | rfl | rfl | rfl
    · exact Or.inl hprefix
    · exact Or.inr (Or.inl hprefix)
    · exact Or.inr (Or.inr (Or.inl hprefix))
    · exact Or.inr (Or.inr (Or.inr hprefix))

/-! ## Errors of the bytes -/

namespace Pff2

/-- **The magic is refused just where it is missing**: no later fault is reported as a bad start. -/
theorem parse_eq_badMagicBytes_iff {file : List UInt8} :
    parse file = .error .badMagicBytes ↔ ¬StartsAsBitmaps file := by
  rw [parse_eq_error_iff]
  constructor
  · intro h
    cases h with
    | magic hmagic => exact hmagic
    | later _ _ _ _ _ _ hfault => exact absurd hfault not_faultAt_badMagicBytes
  · exact FirstFault.magic

end Pff2

/-! ## Opening -/

/-- **The first bytes decide the format.** -/
theorem openFont_eq (file : List UInt8) :
    openFont file =
      if StartsAsBitmaps file then openPff2 file
      else if StartsAsOutlines file then (openTrueType file, [])
      else (.error .unknownFormat, []) := by
  simp only [startsAsBitmaps_iff, startsAsOutlines_iff]
  unfold openFont FontFormat.detect
  split_ifs <;> rfl

theorem openPff2_error {file : List UInt8} {e : FontError} (h : (openPff2 file).1 = .error e) :
    (∃ fault, e = .pff2 fault ∧ Pff2.parse file = .error fault) ∨ ∃ fault, e = .pff2Validation fault := by
  unfold openPff2 at h
  cases hparse : Pff2.parse file with
  | error fault =>
    simp only [hparse] at h
    exact Or.inl ⟨fault, (Except.error.inj h).symm, rfl⟩
  | ok parsed =>
    simp only [hparse] at h
    cases hvalid : parsed.font.validate with
    | error fault =>
      simp only [hvalid] at h
      exact Or.inr ⟨fault, (Except.error.inj h).symm⟩
    | ok font =>
      simp only [hvalid] at h
      cases h

theorem openTrueType_error {file : List UInt8} {e : FontError} (h : openTrueType file = .error e) :
    ∃ fault, e = .trueType fault := by
  unfold openTrueType at h
  split at h
  · rename_i fault _
    exact ⟨fault, (Except.error.inj h).symm⟩
  · cases h

theorem openTrueType_ne_pff2 (file : List UInt8) (font : Pff2.Font) : openTrueType file ≠ .ok (.pff2 font) := by
  unfold openTrueType
  split <;> simp

theorem openPff2_eq_ok_iff {file : List UInt8} {font : Pff2.Font} {warnings : List Pff2.Warning} :
    openPff2 file = (.ok (.pff2 font), warnings) ↔
      Pff2.parse file = .ok ⟨font, warnings⟩ ∧ font.validate = .ok font := by
  unfold openPff2
  constructor
  · intro h
    cases hparse : Pff2.parse file with
    | error e => rw [hparse] at h; cases h
    | ok parsed =>
      simp only [hparse] at h
      cases hvalid : parsed.font.validate with
      | error e => rw [hvalid] at h; cases h
      | ok f =>
        obtain rfl := Pff2.Font.validate_eq_ok hvalid
        rw [hvalid] at h
        cases h
        exact ⟨rfl, hvalid⟩
  · rintro ⟨hparse, hvalid⟩
    simp only [hparse, hvalid]

/-- **A file is opened as a bitmap font** if and only if it is one that can be used. -/
theorem openFont_eq_pff2_iff {file : List UInt8} {font : Pff2.Font} {warnings : List Pff2.Warning} :
    openFont file = (.ok (.pff2 font), warnings) ↔
      Pff2.parse file = .ok ⟨font, warnings⟩ ∧ font.validate = .ok font := by
  rw [openFont_eq]
  split_ifs with hbitmaps houtlines
  · exact openPff2_eq_ok_iff
  · refine ⟨fun h => absurd (congrArg Prod.fst h) (openTrueType_ne_pff2 file font), fun h => ?_⟩
    rw [Pff2.parse_eq_badMagicBytes_iff.2 hbitmaps] at h
    cases h.1
  · refine ⟨fun h => ?_, fun h => ?_⟩
    · cases h
    · rw [Pff2.parse_eq_badMagicBytes_iff.2 hbitmaps] at h
      cases h.1

/-- **Why a file cannot be opened**: each format has errors of its own, and a file of neither format has one error. -/
theorem openFont_error {file : List UInt8} {e : FontError} (h : (openFont file).1 = .error e) :
    (StartsAsBitmaps file ∧ ((∃ fault, e = .pff2 fault ∧ fault ≠ .badMagicBytes) ∨ ∃ fault, e = .pff2Validation fault)) ∨
    (StartsAsOutlines file ∧ ∃ fault, e = .trueType fault) ∨
    (¬StartsAsBitmaps file ∧ ¬StartsAsOutlines file ∧ e = .unknownFormat) := by
  rw [openFont_eq] at h
  split_ifs at h with hbitmaps houtlines
  · rcases openPff2_error h with ⟨fault, rfl, hparse⟩ | hfault
    · refine Or.inl ⟨hbitmaps, Or.inl ⟨fault, rfl, ?_⟩⟩
      rintro rfl
      exact Pff2.parse_eq_badMagicBytes_iff.1 hparse hbitmaps
    · exact Or.inl ⟨hbitmaps, Or.inr hfault⟩
  · exact Or.inr (Or.inl ⟨houtlines, openTrueType_error h⟩)
  · exact Or.inr (Or.inr ⟨hbitmaps, houtlines, (Except.error.inj h).symm⟩)

/-- **A usable font that is written is opened as it was**, if its codes rise and its bitmaps are exact. -/
theorem openFont_ofGlyphs {font : Pff2.Font} (hfault : font.fault? = none) (hrising : font.Rising)
    (hexact : ∀ g ∈ font.glyphs.toList, g.Exact)
    (hsize : (Pff2.Layout.ofGlyphs (Pff2.propertySections font.toProperties) font.glyphs.toList).bytes.length <
      UInt32.size) :
    openFont (Pff2.Layout.ofGlyphs (Pff2.propertySections font.toProperties) font.glyphs.toList).bytes =
      (.ok (.pff2 font), []) := by
  have hperm : (Pff2.propertySections font.toProperties).Perm (Pff2.propertySections font.toProperties ++ []) :=
    List.Perm.of_eq (List.append_nil _).symm
  have hcodes : (font.glyphs.toList.map Pff2.Glyph.code).Nodup :=
    List.pairwise_map.2 (hrising.imp fun hlt => UInt32.ne_of_lt hlt)
  obtain ⟨table, htable, hpair, hparse⟩ :=
    Pff2.parse_ofGlyphs hperm (fun s hs => absurd hs List.not_mem_nil) hcodes hexact hsize
  obtain rfl : table = font.glyphs.toList := Pff2.eq_of_perm_of_rising htable hpair hrising
  exact openFont_eq_pff2_iff.2 ⟨hparse, Pff2.Font.validate_eq_ok_iff.2 ⟨rfl, Pff2.Font.fault?_eq_none_iff.1 hfault⟩⟩

/-! ## Rendering -/

namespace Pff2.Font

variable {font : Font} {character : Char}

/-- the glyph of a character that the font has is drawn on a canvas whose file is the glyph's image -/
theorem exists_drawn (hrising : font.Rising) {g : Glyph} (hg : g ∈ font.glyphs) (hexact : g.Exact)
    (hcode : g.code = character.val) :
    ∃ canvas, (OpenFace.pff2 font).draw character = .ok ⟨character, g.metrics, canvas⟩ ∧
      Pixmap.encode canvas = g.image := by
  obtain ⟨p, hp⟩ := Array.mem_iff_getElem?.1 hg
  obtain ⟨i, hi, -, hglyph⟩ := exists_glyphIndex hrising hp hcode
  obtain ⟨b, c, hcoverage, hframing, himage⟩ := Glyph.exists_canvas hexact
  refine ⟨c, ?_, himage⟩
  have hraster : font.rasterize i = .ok ⟨b, g.metrics⟩ :=
    rasterize_eq_ok_iff.2 ⟨g, hglyph, (Glyph.coverage_eq_ok_iff.1 hcoverage).1, hcoverage, rfl⟩
  unfold OpenFace.draw
  simp only [OpenFace.glyphIndex, OpenFace.rasterize, hi, hraster, RenderedGlyph.ofRaster, hframing]

/-- a character without a glyph is not found -/
theorem draw_eq_glyphNotFound (h : ∀ g ∈ font.glyphs, g.code ≠ character.val) :
    (OpenFace.pff2 font).draw character = .error (.glyphNotFound character) := by
  unfold OpenFace.draw
  simp only [OpenFace.glyphIndex, glyphIndex_eq_none h]

end Pff2.Font

theorem Session.render_pff2 (font : Pff2.Font) (warnings : List Pff2.Warning) (job : Job) (hsize : job.sizePx ≠ 0) :
    (asFace.render job ⟨.pff2 font, warnings⟩).1 = (OpenFace.pff2 font).draw job.character := by
  rw [render_eq, if_neg hsize, OpenFace.resized_pff2]

/-- **Opening and rendering agree.** A file is of unknown format just if it starts neither as bitmap fonts nor as outline
fonts do; errors of either kind come only from files that start so, and a bitmap font is never refused for its start. A
bitmap font that is opened can be used, its codes rise, and its bitmaps have just the bytes that their sizes ask for.
Therefore a character of it is drawn at every size but 0 if the font has a glyph for it, and is not found otherwise; no
other error arises. -/
theorem opened_bitmap_font_renders (file : List UInt8) :
    ((openFont file).1 = .error .unknownFormat ↔ ¬StartsAsBitmaps file ∧ ¬StartsAsOutlines file) ∧
    (∀ e, (openFont file).1 = .error (.pff2 e) → StartsAsBitmaps file ∧ e ≠ .badMagicBytes) ∧
    (∀ e, (openFont file).1 = .error (.pff2Validation e) → StartsAsBitmaps file) ∧
    (∀ e, (openFont file).1 = .error (.trueType e) → StartsAsOutlines file) ∧
    ∀ font, (openFont file).1 = .ok (.pff2 font) →
      font.Usable ∧ font.Rising ∧ (∀ g ∈ font.glyphs, g.Exact) ∧
      ∀ (job : Job) (warnings : List Pff2.Warning), job.sizePx ≠ 0 →
        ((∀ g ∈ font.glyphs, g.code ≠ job.character.val) ∧
          (Session.asFace.render job ⟨.pff2 font, warnings⟩).1 = .error (.glyphNotFound job.character)) ∨
        ∃ g ∈ font.glyphs, g.code = job.character.val ∧ ∃ canvas,
          (Session.asFace.render job ⟨.pff2 font, warnings⟩).1 = .ok ⟨job.character, g.metrics, canvas⟩ ∧
          Pixmap.encode canvas = g.image := by
  refine ⟨⟨fun h => ?_, fun h => ?_⟩, fun e h => ?_, fun e h => ?_, fun e h => ?_, fun font h => ?_⟩
  · rcases openFont_error h with ⟨-, ⟨_, he, -⟩ | ⟨_, he⟩⟩ | ⟨-, _, he⟩ | ⟨hbitmaps, houtlines, -⟩
    · cases he
    · cases he
    · cases he
    · exact ⟨hbitmaps, houtlines⟩
  · rw [openFont_eq, if_neg h.1, if_neg h.2]
  · rcases openFont_error h with ⟨hbitmaps, ⟨fault, he, hfault⟩ | ⟨_, he⟩⟩ | ⟨-, _, he⟩ | ⟨-, -, he⟩
    · obtain rfl := FontError.pff2.inj he
      exact ⟨hbitmaps, hfault⟩
    · cases he
    · cases he
    · cases he
  · rcases openFont_error h with ⟨hbitmaps, -⟩ | ⟨-, _, he⟩ | ⟨-, -, he⟩
    · exact hbitmaps
    · cases he
    · cases he
  · rcases openFont_error h with ⟨-, ⟨_, he, -⟩ | ⟨_, he⟩⟩ | ⟨houtlines, -⟩ | ⟨-, -, he⟩
    · cases he
    · cases he
    · exact houtlines
    · cases he
  · obtain ⟨hparse, hvalid⟩ := openFont_eq_pff2_iff.1 (Prod.ext h rfl)
    have hrising := Pff2.rising_of_parse hparse
    have hexact : ∀ g ∈ font.glyphs, g.Exact := fun g hg => Pff2.exact_of_parse hparse hg
    refine ⟨(Pff2.Font.validate_eq_ok_iff.1 hvalid).2, hrising, hexact, fun job warnings hsize => ?_⟩
    rw [Session.render_pff2 font warnings job hsize]
    by_cases hglyph : ∃ g ∈ font.glyphs, g.code = job.character.val
    · obtain ⟨g, hg, hcode⟩ := hglyph
      exact Or.inr ⟨g, hg, hcode, Pff2.Font.exists_drawn hrising hg (hexact g hg) hcode⟩
    · push Not at hglyph
      exact Or.inl ⟨hglyph, Pff2.Font.draw_eq_glyphNotFound hglyph⟩

/-- a font with one glyph is opened, draws this glyph and misses another one; a file that stops inside the magic is of
unknown format -/
theorem opened_bitmap_font_renders_small :
    let font : Pff2.Font := ⟨⟨"T", "", 12, "", 8, 8, 6, 2⟩, #[⟨65, 3, 2, 1, -1, 4, #[0xB8]⟩]⟩
    let file := (Pff2.Layout.ofGlyphs (Pff2.propertySections font.toProperties) font.glyphs.toList).bytes
    (openFont (file.take 11)).1 = .error .unknownFormat ∧
    (openFont file).1 = .ok (.pff2 font) ∧ (30 : UInt32) ≠ 0 ∧
    (∃ rendered, (Session.asFace.render (Job.new "t.pf2" 'A' 30) ⟨.pff2 font, []⟩).1 = .ok rendered) ∧
    (Session.asFace.render (Job.new "t.pf2" 'B' 30) ⟨.pff2 font, []⟩).1 = .error (.glyphNotFound 'B') := by
  intro font file
  have hrising : font.Rising := List.pairwise_singleton _ _
  have hexact : ∀ g ∈ font.glyphs.toList, g.Exact := by decide
  have hwritten : openFont file = (.ok (.pff2 font), []) :=
    openFont_ofGlyphs (by decide) hrising hexact (by decide +kernel)
  have hopen : (openFont file).1 = .ok (.pff2 font) := congrArg Prod.fst hwritten
  obtain ⟨hunknown, -⟩ := opened_bitmap_font_renders (file.take 11)
  obtain ⟨-, -, -, -, hfont⟩ := opened_bitmap_font_renders file
  obtain ⟨-, -, -, hrender⟩ := hfont font hopen
  refine ⟨hunknown.2 ⟨by decide, by decide⟩, hopen, by decide, ?_, ?_⟩
  · rcases hrender (Job.new "t.pf2" 'A' 30) [] (by decide) with ⟨hnone, -⟩ | ⟨g, -, -, canvas, hdrawn, -⟩
    · exact absurd rfl (hnone ⟨65, 3, 2, 1, -1, 4, #[0xB8]⟩ (by simp [font]))
    · exact ⟨_, hdrawn⟩
  · rcases hrender (Job.new "t.pf2" 'B' 30) [] (by decide) with ⟨-, hmissing⟩ | ⟨g, hg, hcode, -⟩
    · exact hmissing
    · obtain rfl : g = ⟨65, 3, 2, 1, -1, 4, #[0xB8]⟩ := by simpa [font] using hg
      exact absurd hcode (by decide)

end GlyphImage
