/-
The glyph table. Its codes rise strictly (`readGlyphs_pairwise`), and it consists of just the glyphs that the first
readable entries of their codes show (`mem_readGlyphs_iff`).

Sorting keeps glyphs of one code in the order of the index (`filter_mergeSort`), and of neighbours with one code the
first is kept, so both leave the first glyph of every code where a search for it finds it (`find?_mergeSort`,
`find?_dropRepeated`). Unreadable entries are gone before either, so they have no influence.
-/
import GlyphImage.Proofs.Pff2.Records

namespace GlyphImage.Pff2

/-! ## Neighbours with one code -/

theorem find?_dropRepeated (glyphs : List Glyph) (k : UInt32) :
    (dropRepeated glyphs).find? (fun g => g.code = k) = glyphs.find? (fun g => g.code = k) := by
  induction glyphs with
  | nil => rfl
  | cons g rest ih =>
    rw [dropRepeated]
    cases hd : dropRepeated rest with
    | nil => rw [hd] at ih; simp only [List.find?_cons, ← ih]
    | cons h later =>
      rw [hd] at ih
      simp only
      split_ifs with hcode
      · by_cases hg : g.code = k
        · simp only [List.find?_cons, hg, decide_true]
        · have hh : h.code ≠ k := hcode ▸ hg
          simp only [List.find?_cons, hg, hh, decide_false, ← ih]
      · rw [List.find?_cons, ih]
        rfl

theorem dropRepeated_sublist (glyphs : List Glyph) : (dropRepeated glyphs).Sublist glyphs := by
  induction glyphs with
  | nil => exact List.Sublist.refl _
  | cons g rest ih =>
    rw [dropRepeated]
    cases hd : dropRepeated rest with
    | nil => exact List.singleton_sublist.2 List.mem_cons_self
    | cons h later =>
      rw [hd] at ih
      simp only
      split_ifs with hcode
      · exact ((List.sublist_cons_self h later).trans ih).cons_cons g
      · exact ih.cons_cons g

/-- among rising codes only neighbours repeat each other -/
theorem dropRepeated_pairwise {glyphs : List Glyph} (h : glyphs.Pairwise fun g g' => g.code ≤ g'.code) :
    (dropRepeated glyphs).Pairwise fun g g' => g.code < g'.code := by
  induction glyphs with
  | nil => exact List.Pairwise.nil
  | cons g rest ih =>
    obtain ⟨hg, hrest⟩ := List.pairwise_cons.1 h
    have hlater := ih hrest
    have hsub := dropRepeated_sublist rest
    rw [dropRepeated]
    cases hd : dropRepeated rest with
    | nil => exact List.pairwise_singleton _ _
    | cons first later =>
      rw [hd] at hlater hsub
      obtain ⟨hfirst, hpair⟩ := List.pairwise_cons.1 hlater
      simp only
      split_ifs with hcode
      · exact List.pairwise_cons.2 ⟨fun x hx => hcode ▸ hfirst x hx, hpair⟩
      · have hlt : g.code < first.code :=
          UInt32.lt_of_le_of_ne (hg first (hsub.subset List.mem_cons_self)) hcode
        refine List.pairwise_cons.2 ⟨fun x hx => ?_, hlater⟩
        rcases List.mem_cons.1 hx with rfl | hx
        · exact hlt
        · exact UInt32.lt_trans hlt (hfirst x hx)

/-- glyphs of different codes all stay -/
theorem dropRepeated_eq_self {glyphs : List Glyph} (h : glyphs.Pairwise fun g g' => g.code ≠ g'.code) :
    dropRepeated glyphs = glyphs := by
  induction glyphs with
  | nil => rfl
  | cons g rest ih =>
    obtain ⟨hg, hrest⟩ := List.pairwise_cons.1 h
    rw [dropRepeated, ih hrest]
    cases rest with
    | nil => rfl
    | cons first later => exact if_neg (hg first List.mem_cons_self)

/-! ## Sorting -/

/-- the order in which glyphs are sorted -/
abbrev codeLE (g g' : Glyph) : Bool := g.code ≤ g'.code

theorem codeLE_trans (a b c : Glyph) (hab : codeLE a b = true) (hbc : codeLE b c = true) : codeLE a c = true :=
  decide_eq_true (UInt32.le_trans (of_decide_eq_true hab) (of_decide_eq_true hbc))

theorem codeLE_total (a b : Glyph) : (codeLE a b || codeLE b a) = true := by
  rcases UInt32.le_total a.code b.code with h | h
  · simp [codeLE, h]
  · simp [codeLE, h]

/-- **Sorting is stable**: it keeps the glyphs of one code in their order. -/
theorem filter_mergeSort (glyphs : List Glyph) (k : UInt32) :
    (glyphs.mergeSort codeLE).filter (fun g => g.code = k) = glyphs.filter (fun g => g.code = k) := by
  have hsame : (glyphs.filter fun g => g.code = k).Pairwise fun a b => codeLE a b = true := by
    refine List.pairwise_of_forall_mem_list fun a ha b hb => ?_
    have hka : a.code = k := of_decide_eq_true (List.mem_filter.1 ha).2
    have hkb : b.code = k := of_decide_eq_true (List.mem_filter.1 hb).2
    simp [codeLE, hka, hkb]
  have hsub := List.sublist_mergeSort codeLE_trans codeLE_total hsame List.filter_sublist
  have hfilter := hsub.filter fun g => g.code = k
  rw [List.filter_filter] at hfilter
  simp only [Bool.and_self] at hfilter
  exact (hfilter.eq_of_length ((List.mergeSort_perm glyphs codeLE).filter _).length_eq.symm).symm

theorem find?_mergeSort (glyphs : List Glyph) (k : UInt32) :
    (glyphs.mergeSort codeLE).find? (fun g => g.code = k) = glyphs.find? (fun g => g.code = k) := by
  rw [← List.head?_filter, filter_mergeSort, List.head?_filter]

/-! ## The table -/

/-- **The codes of the table rise strictly.** -/
theorem readGlyphs_pairwise (file : Array UInt8) (index : List IndexEntry) :
    (readGlyphs file index).Pairwise fun g g' => g.code < g'.code := by
  refine dropRepeated_pairwise ?_
  refine (List.pairwise_mergeSort codeLE_trans codeLE_total _).imp ?_
  intro a b hab
  exact of_decide_eq_true hab

theorem find?_readGlyphs (file : Array UInt8) (index : List IndexEntry) (k : UInt32) :
    (readGlyphs file index).find? (fun g => g.code = k) =
      (index.find? fun e => (e.glyph? file).any fun g => g.code = k).bind (IndexEntry.glyph? file) := by
  rw [readGlyphs, find?_dropRepeated, find?_mergeSort, List.find?_filterMap]

/-- an index that leads to glyphs of different codes has just these in its table -/
theorem readGlyphs_perm {file : Array UInt8} {index : List IndexEntry} {glyphs : List Glyph}
    (h : index.map (IndexEntry.glyph? file) = glyphs.map some) (hcodes : (glyphs.map Glyph.code).Nodup) :
    (readGlyphs file index).Perm glyphs := by
  have hall : index.filterMap (IndexEntry.glyph? file) = glyphs :=
    calc index.filterMap (IndexEntry.glyph? file) = (index.map (IndexEntry.glyph? file)).filterMap id :=
          (List.filterMap_map (f := IndexEntry.glyph? file) (g := id)).symm
      _ = (glyphs.map some).filterMap id := by rw [h]
      _ = glyphs.filterMap some := List.filterMap_map
      _ = glyphs := List.filterMap_some
  have hsort := List.mergeSort_perm glyphs codeLE
  have hne : (glyphs.mergeSort codeLE).Pairwise fun g g' => g.code ≠ g'.code :=
    List.pairwise_map.1 ((hsort.map Glyph.code).nodup_iff.2 hcodes)
  rw [readGlyphs, hall, dropRepeated_eq_self hne]
  exact hsort

/-- where codes rise strictly, a glyph is in the list if and only if the search for its code finds it -/
theorem mem_iff_find? {glyphs : List Glyph} (h : glyphs.Pairwise fun g g' => g.code < g'.code) (g : Glyph) :
    g ∈ glyphs ↔ glyphs.find? (fun x => x.code = g.code) = some g := by
  refine ⟨fun hg => ?_, List.mem_of_find?_eq_some⟩
  rw [List.find?_eq_some_iff_append]
  obtain ⟨before, after, rfl⟩ := List.append_of_mem hg
  refine ⟨by simp, before, after, rfl, fun a ha => ?_⟩
  have hlt : a.code < g.code := (List.pairwise_append.1 h).2.2 a ha g List.mem_cons_self
  simpa using UInt32.ne_of_lt hlt

/-- lists that hold the same glyphs in strictly rising order are equal -/
theorem eq_of_perm_of_rising {table glyphs : List Glyph} (hperm : table.Perm glyphs)
    (htable : table.Pairwise fun g g' => g.code < g'.code) (hglyphs : glyphs.Pairwise fun g g' => g.code < g'.code) :
    table = glyphs := by
  refine hperm.eq_of_pairwise (fun a b _ _ hab hba => ?_) htable hglyphs
  exact absurd hba (UInt32.lt_asymm hab)

/-- strictly rising lists of the same glyphs are equal -/
theorem eq_of_mem_iff_of_rising {table glyphs : List Glyph} (htable : table.Pairwise fun g g' => g.code < g'.code)
    (hglyphs : glyphs.Pairwise fun g g' => g.code < g'.code) (hmem : ∀ g, g ∈ table ↔ g ∈ glyphs) :
    table = glyphs := by
  have hne : ∀ {g g' : Glyph}, g.code < g'.code → g ≠ g' := fun hlt heq => UInt32.lt_irrefl _ (heq ▸ hlt)
  exact eq_of_perm_of_rising ((List.perm_ext_iff_of_nodup (htable.imp hne) (hglyphs.imp hne)).2 hmem) htable hglyphs

/-- what a search in the table finds comes from the entries for that code -/
theorem find?_readGlyphs_eq_head? (file : List UInt8) (index : List IndexEntry) (k : UInt32) :
    (readGlyphs file.toArray index).find? (fun g => g.code = k) =
      ((index.filter fun e => e.code = k).filterMap (IndexEntry.glyph? file.toArray)).head? := by
  have hfilter : (index.filterMap (IndexEntry.glyph? file.toArray)).filter (fun g => g.code = k) =
      (index.filter fun e => e.code = k).filterMap (IndexEntry.glyph? file.toArray) := by
    rw [List.filter_filterMap, List.filterMap_filter]
    refine List.filterMap_congr fun e _ => ?_
    cases hglyph : e.glyph? file.toArray with
    | none => simp
    | some g => simp [Option.filter_some, IndexEntry.code_of_glyph? hglyph]
  rw [readGlyphs, find?_dropRepeated, find?_mergeSort, ← List.head?_filter, hfilter]

/-- **The table depends on what the entries for each code lead to**, and on nothing else. -/
theorem readGlyphs_congr {file file' : List UInt8} {index index' : List IndexEntry}
    (h : ∀ k, (index.filter fun e => e.code = k).filterMap (IndexEntry.glyph? file.toArray) =
      (index'.filter fun e => e.code = k).filterMap (IndexEntry.glyph? file'.toArray)) :
    readGlyphs file.toArray index = readGlyphs file'.toArray index' := by
  have hrising := readGlyphs_pairwise file.toArray index
  have hrising' := readGlyphs_pairwise file'.toArray index'
  refine eq_of_mem_iff_of_rising hrising hrising' fun g => ?_
  rw [mem_iff_find? hrising, mem_iff_find? hrising', find?_readGlyphs_eq_head?, find?_readGlyphs_eq_head?, h]

/-- **The table holds exactly what the first readable entries show.** -/
theorem mem_readGlyphs_iff {file : List UInt8} {index : List IndexEntry} {g : Glyph} :
    g ∈ readGlyphs file.toArray index ↔ FirstShown file index g := by
  rw [mem_iff_find? (readGlyphs_pairwise _ _), find?_readGlyphs, Option.bind_eq_some_iff]
  constructor
  · rintro ⟨e, hfind, hglyph⟩
    obtain ⟨-, before, after, rfl, hbefore⟩ := List.find?_eq_some_iff_append.1 hfind
    refine ⟨before, e, after, rfl, IndexEntry.glyph?_eq_some_iff.1 hglyph, ?_⟩
    rintro e' he' hcode ⟨g', hg'⟩
    have hnone := hbefore e' he'
    rw [IndexEntry.glyph?_eq_some_iff.2 hg'] at hnone
    simp [hg'.1, hcode] at hnone
  · rintro ⟨before, e, after, rfl, hshows, hbefore⟩
    refine ⟨e, ?_, IndexEntry.glyph?_eq_some_iff.2 hshows⟩
    refine List.find?_eq_some_iff_append.2 ⟨?_, before, after, rfl, fun e' he' => ?_⟩
    · rw [IndexEntry.glyph?_eq_some_iff.2 hshows]
      simp
    · cases hglyph : e'.glyph? file.toArray with
      | none => rfl
      | some g' =>
        have hg' := IndexEntry.glyph?_eq_some_iff.1 hglyph
        have hne : g'.code ≠ g.code := fun hcode => hbefore e' he' (hg'.1.symm.trans hcode) ⟨g', hg'⟩
        simpa using hne

/-- a code with a readable entry has a first one -/
theorem exists_firstShown {file : List UInt8} {index : List IndexEntry} {e : IndexEntry} (he : e ∈ index)
    (hreadable : e.Readable file) : ∃ g, g.code = e.code ∧ FirstShown file index g := by
  induction index with
  | nil => exact absurd he List.not_mem_nil
  | cons e0 rest ih =>
    by_cases hfirst : e0.code = e.code ∧ e0.Readable file
    · obtain ⟨hcode, g, hg⟩ := hfirst
      exact ⟨g, hg.1.trans hcode, [], e0, rest, rfl, hg, fun _ h => absurd h List.not_mem_nil⟩
    · have hrest : e ∈ rest := by
        rcases List.mem_cons.1 he with rfl | he
        · exact absurd ⟨rfl, hreadable⟩ hfirst
        · exact he
      obtain ⟨g, hcode, before, e1, after, rfl, hshows, hbefore⟩ := ih hrest
      refine ⟨g, hcode, e0 :: before, e1, after, rfl, hshows, fun e' he' hcode' hread => ?_⟩
      rcases List.mem_cons.1 he' with rfl | he'
      · exact hfirst ⟨hcode'.trans hcode, hread⟩
      · exact hbefore e' he' hcode' hread

/-- a code has a glyph in the table if and only if one of its entries is readable -/
theorem exists_mem_readGlyphs_iff {file : List UInt8} {index : List IndexEntry} {k : UInt32} :
    (∃ g ∈ readGlyphs file.toArray index, g.code = k) ↔ ∃ e ∈ index, e.code = k ∧ e.Readable file := by
  constructor
  · rintro ⟨g, hg, rfl⟩
    obtain ⟨before, e, after, rfl, hshows, -⟩ := mem_readGlyphs_iff.1 hg
    exact ⟨e, by simp, hshows.1.symm, g, hshows⟩
  · rintro ⟨e, he, rfl, hreadable⟩
    obtain ⟨g, hcode, hfirst⟩ := exists_firstShown he hreadable
    exact ⟨g, mem_readGlyphs_iff.2 hfirst, hcode⟩

end GlyphImage.Pff2
