/-
The order in which a file says things. `reordered_file_has_same_font`: sections may be put in another order, as long as
those of one known name stay in theirs, and so may the entries of the character index, as long as those of one code stay
in theirs; the font is the same.

Both orders are instances of one notion, `Rearranged`. The last section of a kind is the same one in every such order, so
the properties stay (`Layout.Describes.properties_congr`); for each code the entries lead to the same glyphs in the same
order, so the tables are equal (`readGlyphs_congr`). The offsets stay right because the sections take as many bytes as
before.
-/
import GlyphImage.Proofs.Pff2.Footprint

namespace GlyphImage.Pff2

/-! ## Other orders -/

/-- the same elements in another order, in which those of each class stay as they were -/
def Rearranged {α κ : Type} (inClass : κ → α → Bool) (xs ys : List α) : Prop :=
  xs.Perm ys ∧ ∀ k, xs.filter (inClass k) = ys.filter (inClass k)

/-- sections of which the last character index has its entries in another order; those of one code stay in theirs -/
inductive Reindexed : List Section → List Section → Prop where
  | kept (sections : List Section) : Reindexed sections sections
  | entries (before after : List Section) (index index' : List IndexEntry)
      (hlast : ∀ s ∈ after, s.tag ≠ Kind.charIndex.tag) (h : Rearranged (fun code e => e.code = code) index index') :
      Reindexed (before ++ Section.ofIndex index :: after) (before ++ Section.ofIndex index' :: after)

/-- the layout with the entries of its index and then its sections in another order; sections of one known name stay in
theirs -/
def Layout.Reordered (l l' : Layout) : Prop :=
  l'.tail = l.tail ∧ ∃ sections, Reindexed l.sections sections ∧
    Rearranged (fun (k : Kind) s => s.tag = k.tag) sections l'.sections

/-! ## Entries in another order -/

variable {sections sections' : List Section}

namespace Reindexed

theorem sum_size (h : Reindexed sections sections') :
    (sections.map Section.size).sum = (sections'.map Section.size).sum := by
  cases h with
  | kept => rfl
  | entries before after index index' hlast h =>
    simp only [List.map_append, List.map_cons, Section.size_ofIndex, h.1.length_eq]

/-- a section is an old one, or an index of as many entries as an old one -/
theorem mem (h : Reindexed sections sections') {s : Section} (hs : s ∈ sections') :
    s ∈ sections ∨ ∃ index index', Section.ofIndex index ∈ sections ∧ index.length = index'.length ∧
      s = Section.ofIndex index' := by
  cases h with
  | kept => exact Or.inl hs
  | entries before after index index' hlast h =>
    rcases List.mem_append.1 hs with hs | hs
    · exact Or.inl (List.mem_append_left _ hs)
    · rcases List.mem_cons.1 hs with rfl | hs
      · exact Or.inr ⟨index, index', by simp, h.1.length_eq, rfl⟩
      · exact Or.inl (List.mem_append_right _ (List.mem_cons_of_mem _ hs))

theorem complete (h : Reindexed sections sections') (hcomplete : ∀ s ∈ sections, s.Complete) :
    ∀ s ∈ sections', s.Complete := by
  intro s hs
  rcases h.mem hs with hs | ⟨index, index', hold, hlength, rfl⟩
  · exact hcomplete s hs
  · obtain ⟨htag, hsize⟩ := hcomplete _ hold
    rw [Section.ofIndex, IndexEntry.length_flatMap_encode, hlength] at hsize
    exact ⟨htag, by rwa [Section.ofIndex, IndexEntry.length_flatMap_encode]⟩

theorem sound (h : Reindexed sections sections') (hsound : ∀ s ∈ sections, s.Sound) : ∀ s ∈ sections', s.Sound := by
  intro s hs
  rcases h.mem hs with hs | ⟨-, index', -, -, rfl⟩
  · exact hsound s hs
  · exact Section.sound_ofIndex index'

/-- sections of other kinds are not touched -/
theorem filter_eq (h : Reindexed sections sections') {k : Kind} (hk : k ≠ .charIndex) :
    sections.filter (fun s => s.tag = k.tag) = sections'.filter fun s => s.tag = k.tag := by
  cases h with
  | kept => rfl
  | entries before after index index' hlast h =>
    have hother : ∀ i, (Section.ofIndex i).tag ≠ k.tag := fun _ htag =>
      hk (Kind.tag_injective (j := .charIndex) htag).symm
    simp only [List.filter_append, List.filter_cons, hother, decide_false, Bool.false_eq_true, if_false]

/-- the index in force has the same entries in another order -/
theorem exists_hasIndex (h : Reindexed sections sections') (tail tail' : Tail) {index : List IndexEntry}
    (hindex : Layout.HasIndex ⟨sections, tail⟩ index) :
    ∃ index', Rearranged (fun code e => e.code = code) index index' ∧ Layout.HasIndex ⟨sections', tail'⟩ index' := by
  cases h with
  | kept => exact ⟨index, ⟨List.Perm.refl _, fun _ => rfl⟩, hindex⟩
  | entries before after index1 index2 hlast h =>
    have hin : ∀ i tail, Layout.HasIndex ⟨before ++ Section.ofIndex i :: after, tail⟩ i := by
      intro i tail
      have hafter : after.filter (fun s => s.tag = Kind.charIndex.tag) = [] :=
        List.filter_eq_nil_iff.2 fun s hs => by simpa using hlast s hs
      have htag : (Section.ofIndex i).tag = Kind.charIndex.tag := rfl
      rw [Layout.HasIndex, Layout.last?, List.filter_append, List.filter_cons_of_pos (by simp [htag]), hafter,
        List.getLast?_concat]
      rfl
    obtain rfl := (hin index1 tail).unique hindex
    exact ⟨index2, h, hin index2 tail'⟩

end Reindexed

/-! ## Files -/

namespace Layout

variable {l l' : Layout} {index : List IndexEntry}

theorem Reordered.dataStart_eq (h : l.Reordered l') : l'.dataStart = l.dataStart := by
  obtain ⟨-, sections, hreindexed, hperm, -⟩ := h
  rw [dataStart, dataStart, hreindexed.sum_size, (hperm.map Section.size).sum_eq]

/-- behind the `DATA` header nothing has moved -/
theorem Reordered.getElem?_eq (h : l.Reordered l') (htail : l.tail ≠ .endOfFile) {i : Nat} (hi : l.dataStart ≤ i) :
    l'.bytes[i]? = l.bytes[i]? := by
  cases hdata : l.tail with
  | endOfFile => exact absurd hdata htail
  | glyphData length rest =>
    rw [getElem?_bytes hdata hi, getElem?_bytes (h.1.trans hdata) (h.dataStart_eq ▸ hi), h.dataStart_eq]

theorem Reordered.length_eq (h : l.Reordered l') (htail : l.tail ≠ .endOfFile) : l'.bytes.length = l.bytes.length := by
  cases hdata : l.tail with
  | endOfFile => exact absurd hdata htail
  | glyphData length rest => rw [length_bytes hdata, length_bytes (h.1.trans hdata), h.dataStart_eq]

theorem Reordered.forall_complete (h : l.Reordered l') (hcomplete : ∀ s ∈ l.sections, s.Complete) :
    ∀ s ∈ l'.sections, s.Complete := by
  obtain ⟨-, sections, hreindexed, hperm, -⟩ := h
  exact fun s hs => hreindexed.complete hcomplete s (hperm.mem_iff.2 hs)

theorem Reordered.sound (h : l.Reordered l') (hsound : l.Sound) : l'.Sound := by
  obtain ⟨-, sections, hreindexed, hperm, -⟩ := h
  exact fun s hs => hreindexed.sound hsound s (hperm.mem_iff.2 hs)

/-- the last section of a kind is the same one, unless it is the index -/
theorem Reordered.last?_eq (h : l.Reordered l') {k : Kind} (hk : k ≠ .charIndex) : l'.last? k = l.last? k := by
  obtain ⟨-, sections, hreindexed, -, hfilter⟩ := h
  rw [last?, last?, hreindexed.filter_eq hk, hfilter k]

theorem Reordered.exists_hasIndex (h : l.Reordered l') (hindex : l.HasIndex index) :
    ∃ index', Rearranged (fun code e => e.code = code) index index' ∧ l'.HasIndex index' := by
  obtain ⟨-, sections, hreindexed, -, hfilter⟩ := h
  obtain ⟨index', hrearranged, hindex'⟩ := hreindexed.exists_hasIndex l.tail l'.tail hindex
  refine ⟨index', hrearranged, ?_⟩
  rw [HasIndex, last?, ← hfilter .charIndex]
  exact hindex'

end Layout

/-- entries whose records lie behind the `DATA` header lead to the same table in either order -/
theorem readGlyphs_reordered {l l' : Layout} {index index' : List IndexEntry} (h : l.Reordered l')
    (htail : l.tail ≠ .endOfFile) (hoffsets : ∀ e ∈ index, l.dataStart ≤ e.offset.toNat)
    (hindex : Rearranged (fun code e => e.code = code) index index') :
    readGlyphs l.bytes.toArray index = readGlyphs l'.bytes.toArray index' := by
  refine readGlyphs_congr fun code => ?_
  rw [← hindex.2 code]
  refine List.filterMap_congr fun e he => ?_
  have hread : e.read l.bytes.toArray = e.read l'.bytes.toArray := by
    refine IndexEntry.read_congr (h.length_eq htail).symm fun i hi => ?_
    exact (h.getElem?_eq htail (Nat.le_trans (hoffsets e (List.mem_of_mem_filter he)) hi.1)).symm
  rw [IndexEntry.glyph?, IndexEntry.glyph?, hread]

/-- **The order does not matter.** Let a file be accepted and reach a `DATA` header, and let no offset of its index point
in front of the records. Then every file with the sections in another order, and the entries of the index in another
order, is accepted with an equal font; only sections of one known name and entries of one code have to stay in their
order. -/
theorem reordered_file_has_same_font (file : List UInt8) (parsed : Parsed) (h : parse file = .ok parsed)
    (l l' : Layout) (index : List IndexEntry) (hl : l.Describes file) (htail : l.tail ≠ .endOfFile)
    (hindex : l.HasIndex index) (hoffsets : ∀ e ∈ index, l.dataStart ≤ e.offset.toNat) (hreordered : l.Reordered l') :
    ∃ parsed', parse l'.bytes = .ok parsed' ∧ parsed'.font = parsed.font := by
  have hl' : l'.Describes l'.bytes := ⟨rfl, hreordered.forall_complete hl.2⟩
  obtain ⟨parsed', h'⟩ := hl'.exists_parse (hreordered.sound (hl.sound h))
  obtain ⟨index', hrearranged, hindex'⟩ := hreordered.exists_hasIndex hindex
  refine ⟨parsed', h', (Font.eq_of_parts ?_ ?_).symm⟩
  · exact hl.properties_congr h hl' h' fun k hk => (hreordered.last?_eq hk).symm
  · rw [hl.glyphs_eq h htail hindex, hl'.glyphs_eq h' (hreordered.1 ▸ htail) hindex', hl.1,
      readGlyphs_reordered hreordered htail hoffsets hrearranged]

set_option maxRecDepth 8000 in
/-- the sections in reverse, and the entries of `B` behind those of `A`, of which there are two -/
theorem reordered_file_has_same_font_reversed :
    let first : Glyph := ⟨65, 3, 2, 1, -1, 4, #[0xB8]⟩
    let second : Glyph := ⟨66, 8, 2, 0, 0, 9, #[0xFF, 0x01]⟩
    let p : Properties := ⟨"A", "", 16, "", 8, 16, 12, 4⟩
    let tail : Tail := .glyphData 0 (first.encode ++ second.encode)
    let l : Layout :=
      ⟨propertySections p ++ [Section.ofIndex [⟨66, 0, 144⟩, ⟨65, 0, 133⟩, ⟨65, 0, 144⟩]], tail⟩
    let l' : Layout :=
      ⟨Section.ofIndex [⟨65, 0, 133⟩, ⟨65, 0, 144⟩, ⟨66, 0, 144⟩] :: (propertySections p).reverse, tail⟩
    l.Reordered l' ∧ ∃ parsed, parse l'.bytes = .ok parsed ∧ parsed.font = ⟨p, #[first, second]⟩ := by
  intro first second p tail l l'
  have hl : l.Describes l.bytes := ⟨rfl, by decide⟩
  have hindex : l.HasIndex [⟨66, 0, 144⟩, ⟨65, 0, 133⟩, ⟨65, 0, 144⟩] := by decide
  have hentries : Rearranged (fun (code : UInt32) (e : IndexEntry) => e.code = code)
      [⟨66, 0, 144⟩, ⟨65, 0, 133⟩, ⟨65, 0, 144⟩] [⟨65, 0, 133⟩, ⟨65, 0, 144⟩, ⟨66, 0, 144⟩] := by
    refine ⟨by decide, fun code => ?_⟩
    by_cases hA : 65 = code
    · subst hA
      decide
    · simp only [List.filter_cons, hA, decide_false, Bool.false_eq_true, if_false]
  have hreordered : l.Reordered l' :=
    ⟨rfl, _, .entries (propertySections p) [] _ _ (by simp) hentries, by decide, fun k => by cases k <;> rfl⟩
  have hparse : parse l.bytes = .ok ⟨⟨p, #[first, second]⟩, []⟩ := by cbv
  exact ⟨hreordered,
    reordered_file_has_same_font l.bytes _ hparse l l' _ hl (by decide) hindex (by decide) hreordered⟩

end GlyphImage.Pff2
