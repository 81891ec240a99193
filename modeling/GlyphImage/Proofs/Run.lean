/-
Jobs with a bitmap font on a simulated machine. `run_stores_image`: the run fails without a trace if the character has no
readable entry in the font file, and otherwise its output file is the image of the glyph that the first readable entry
shows.

What a run does with what the font draws is known (`Job.run_of_draw_error`, `Job.run_of_draw_ok`), and what the font draws
comes from the glyph table that was read from the file's index.
-/
import GlyphImage.Proofs.Effects

namespace GlyphImage

/-- a character without a readable entry has no glyph to draw -/
theorem Pff2.Font.draw_eq_glyphNotFound_of_entries {file : List UInt8} {font : Pff2.Font} {index : List Pff2.IndexEntry}
    (hglyphs : font.glyphs = (Pff2.readGlyphs file.toArray index).toArray) {character : Char}
    (h : ∀ e ∈ index, e.code = character.val → ¬e.Readable file) :
    (OpenFace.pff2 font).draw character = .error (.glyphNotFound character) := by
  refine Pff2.Font.draw_eq_glyphNotFound fun g hg hcode => ?_
  rw [hglyphs, List.mem_toArray] at hg
  obtain ⟨e, he, hecode, hreadable⟩ := Pff2.exists_mem_readGlyphs_iff.1 ⟨g, hg, hcode⟩
  exact h e he hecode hreadable

/-- **What a run with a bitmap font does.** Take the first entry for the job's character in the file's index whose record
lies inside the file. If there is none, the run fails with `glyphNotFound` and nothing is created or printed. Otherwise
it succeeds, the output file is the image of the glyph that this entry shows, no other file changes, and the
confirmation is printed. -/
theorem run_stores_image (m : Machine) (job : Job) (file : List UInt8) (font : Pff2.Font)
    (warnings : List Pff2.Warning) (place : Location) (hread : m.tree.read m.workDir job.fontPath = .ok file)
    (hopen : openFont file = (.ok (.pff2 font), warnings)) (hsize : job.sizePx ≠ 0)
    (hplace : m.tree.writeTarget m.workDir job.output = .ok place)
    (hroom : m.tree.find? place ≠ some (.device .full)) :
    ∃ (l : Pff2.Layout) (index : List Pff2.IndexEntry), l.Describes file ∧ l.HasIndex index ∧ l.tail ≠ .endOfFile ∧
      ((∀ e ∈ index, e.code = job.character.val → ¬e.Readable file) →
        ∃ m', job.run Machine.host m = (.error (.glyphNotFound job.character), m') ∧
          m'.tree = m.tree ∧ m'.output = m.output) ∧
      ∀ before e after, index = before ++ e :: after → e.code = job.character.val → e.Readable file →
        (∀ e' ∈ before, e'.code = job.character.val → ¬e'.Readable file) →
        ∃ g, e.Shows file g ∧ ∃ rendered m', job.run Machine.host m = (.ok rendered, m') ∧
          ((∀ device, m.tree.find? place ≠ some (.device device)) → m'.tree.find? place = some (.file g.image)) ∧
          (∀ other, other ≠ place → m'.tree.find? other = m.tree.find? other) ∧
          m'.output = m.output ++ savedLine job.output := by
  obtain ⟨hparse, hvalid⟩ := openFont_eq_pff2_iff.1 hopen
  obtain ⟨l, hl⟩ := Pff2.exists_layout_of_parse hparse
  obtain ⟨index, hindex, hglyphs⟩ := hl.exists_index hparse
  have htail : l.tail ≠ .endOfFile := by
    intro htail
    rw [if_pos htail] at hglyphs
    exact (Pff2.Font.validate_eq_ok_iff.1 hvalid).2.glyphs_ne hglyphs
  rw [if_neg htail] at hglyphs
  refine ⟨l, index, hl, hindex, htail, fun hnone => ?_, ?_⟩
  · obtain ⟨noted, hrun⟩ :=
      Job.run_of_draw_error hread hopen hsize (Pff2.Font.draw_eq_glyphNotFound_of_entries hglyphs hnone)
    exact ⟨_, hrun, rfl, rfl⟩
  · rintro before e after rfl hcode ⟨g, hshows⟩ hbefore
    have hgcode : g.code = job.character.val := hshows.1.trans hcode
    have hg : g ∈ font.glyphs := by
      rw [hglyphs, List.mem_toArray]
      refine Pff2.mem_readGlyphs_iff.2 ⟨before, e, after, rfl, hshows, fun e' he' hcode' => ?_⟩
      exact hbefore e' he' (hcode'.trans hgcode)
    obtain ⟨canvas, hdrawn, himage⟩ :=
      Pff2.Font.exists_drawn (Pff2.rising_of_parse hparse) hg hshows.2.1 hgcode
    obtain ⟨m', hrun, houtput, hfind⟩ := Job.run_of_draw_ok hread hopen hsize hdrawn hplace hroom
    rw [himage] at hfind
    refine ⟨g, hshows, _, m', hrun, fun hdevice => ?_, fun other hother => ?_, houtput⟩
    · rw [hfind, FileTree.find?_filled_self (FileTree.ne_nil_of_writeTarget hplace) hdevice]
    · rw [hfind, FileTree.find?_filled_of_ne hother]

set_option maxRecDepth 8000 in
/-- a font with one glyph: its character is drawn, another one is not found -/
theorem run_stores_image_once :
    let p : Pff2.Properties := ⟨"T", "", 12, "", 8, 8, 6, 2⟩
    let a : Pff2.Glyph := ⟨65, 3, 2, 1, -1, 4, #[0xB8]⟩
    let file := (Pff2.Layout.ofGlyphs (Pff2.propertySections p) [a]).bytes
    let m : Machine := { tree := ⟨[(["t.pf2"], .file file)]⟩, workDir := [] }
    (∃ rendered m', Job.run Machine.host ⟨"t.pf2", 'A', 12, "a.ppm"⟩ m = (.ok rendered, m') ∧
      m'.tree.find? ["a.ppm"] = some (.file a.image)) ∧
    ∃ m', Job.run Machine.host ⟨"t.pf2", 'B', 12, "a.ppm"⟩ m = (.error (.glyphNotFound 'B'), m') ∧ m'.tree = m.tree := by
  intro p a file m
  let l := Pff2.Layout.ofGlyphs (Pff2.propertySections p) [a]
  let e : Pff2.IndexEntry := ⟨65, 0, UInt32.ofNat (Pff2.Layout.recordsStart (Pff2.propertySections p) [a])⟩
  have hread : m.tree.read m.workDir "t.pf2" = .ok file := by cbv
  have hplace : m.tree.writeTarget m.workDir "a.ppm" = .ok ["a.ppm"] := by cbv
  have hparse : Pff2.parse file = .ok ⟨⟨p, #[a]⟩, []⟩ := by
    have hwritten : ∃ table : List Pff2.Glyph, table.Perm [a] ∧ (table.Pairwise fun g g' => g.code < g'.code) ∧
        Pff2.parse file = .ok ⟨⟨p, table.toArray⟩, []⟩ :=
      Pff2.parse_ofGlyphs (List.Perm.of_eq (List.append_nil (Pff2.propertySections p)).symm) (by decide) (by decide)
        (by decide) (by decide +kernel)
    obtain ⟨table, htable, -, hparse⟩ := hwritten
    obtain rfl := List.perm_singleton.1 htable
    exact hparse
  have hopen : openFont file = (.ok (.pff2 ⟨p, #[a]⟩), []) := openFont_eq_pff2_iff.2 ⟨hparse, by cbv⟩
  have hfree : m.tree.find? ["a.ppm"] = none := by decide
  have hroom : ∀ device, m.tree.find? ["a.ppm"] ≠ some (.device device) := by
    intro device hdevice
    rw [hfree] at hdevice
    cases hdevice
  have hl : l.Describes file := ⟨rfl, by decide +kernel⟩
  have hindex : l.HasIndex [e] := by decide +kernel
  have hshows : e.Shows file a := by decide +kernel
  constructor
  · obtain ⟨l', index, hl', hindex', -, -, hfound⟩ :=
      run_stores_image m ⟨"t.pf2", 'A', 12, "a.ppm"⟩ file _ _ _ hread hopen (by decide) hplace (hroom .full)
    obtain rfl := hl'.unique hl
    obtain rfl := hindex'.unique hindex
    obtain ⟨g, hg, rendered, m', hrun, himage, -⟩ :=
      hfound [] e [] rfl rfl ⟨a, hshows⟩ fun _ h => absurd h List.not_mem_nil
    obtain rfl := hg.unique hshows
    exact ⟨rendered, m', hrun, himage hroom⟩
  · obtain ⟨l', index, hl', hindex', -, hnone, -⟩ :=
      run_stores_image m ⟨"t.pf2", 'B', 12, "a.ppm"⟩ file _ _ _ hread hopen (by decide) hplace (hroom .full)
    obtain rfl := hl'.unique hl
    obtain rfl := hindex'.unique hindex
    obtain ⟨m', hrun, htree, -⟩ := hnone fun e' he' hcode => by
      rw [List.mem_singleton.1 he'] at hcode
      exact absurd hcode (by decide)
    exact ⟨m', hrun, htree⟩

end GlyphImage
