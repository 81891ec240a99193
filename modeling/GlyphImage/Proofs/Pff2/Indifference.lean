/-
Bytes that nobody reads. `unread_bytes_do_not_matter`: a file that differs only in the flags of index entries, in unknown
sections, in the length field of the `DATA` header, or in bytes behind it that belong to no record is accepted with an
equal font and the same warnings.

Two files are read side by side. `Layout.Alike` relates them, and one step keeps `Draft.Agrees`: the drafts say the same
but for the flags of their entries (`Draft.Agrees.add`), so after all sections they still do (`Draft.Agrees.addAll`). The
sections take as many bytes in both files, so every record stands where it stood, and its bytes are the same.
-/
import GlyphImage.Proofs.Pff2.Footprint

namespace GlyphImage.Pff2

/-! ## What may differ -/

/-- an entry without its flags -/
def IndexEntry.target (e : IndexEntry) : UInt32 × UInt32 := (e.code, e.offset)

/-- sections of one size that differ at most in what is not read -/
inductive Section.Alike : Section → Section → Prop where
  | same (s : Section) : Alike s s
  /-- any unknown name will do, and any payload under it -/
  | unknown (s s' : Section) (h : s.tag.kind? = none) (h' : s'.tag.kind? = none)
      (hlength : s.payload.length = s'.payload.length) : Alike s s'
  /-- the entries of an index may have other flags -/
  | flags (index index' : List IndexEntry) (h : index.map IndexEntry.target = index'.map IndexEntry.target) :
      Alike (ofIndex index) (ofIndex index')

/-- files of one length that reach a `DATA` header and differ at most in what is not read, if this is the index -/
structure Layout.Alike (l l' : Layout) (index : List IndexEntry) : Prop where
  sections : List.Forall₂ Section.Alike l.sections l'.sections
  /-- any length may stand in the header -/
  tails : ∃ length length' rest rest', l.tail = .glyphData length rest ∧ l'.tail = .glyphData length' rest' ∧
    rest.length = rest'.length
  /-- behind the header, the bytes that some record covers are the same -/
  records : ∀ i, l.dataStart ≤ i → (∃ e ∈ index, e.Covers l.bytes i) → l.bytes[i]? = l'.bytes[i]?

/-! ## Sections -/

namespace Section.Alike

variable {s s' : Section}

theorem size_eq (h : Alike s s') : s.size = s'.size := by
  cases h with
  | same => rfl
  | unknown _ _ _ _ hlength => rw [size, size, hlength]
  | flags index index' h =>
    have hlength := congrArg List.length h
    rw [List.length_map, List.length_map] at hlength
    rw [size_ofIndex, size_ofIndex, hlength]

theorem complete (h : Alike s s') (hs : s.Complete) : s'.Complete := by
  have hsize := h.size_eq
  rw [size, size] at hsize
  refine ⟨?_, by have := hs.2; omega⟩
  cases h with
  | same => exact hs.1
  | unknown _ _ _ h' _ =>
    intro htag
    rw [Tag.kind?_eq_some_iff.2 htag] at h'
    cases h'
  | flags => exact hs.1

end Section.Alike

variable {sections sections' : List Section}

theorem sum_size_eq_of_alike (h : List.Forall₂ Section.Alike sections sections') :
    (sections.map Section.size).sum = (sections'.map Section.size).sum := by
  induction h with
  | nil => rfl
  | cons hs _ ih => rw [List.map_cons, List.map_cons, List.sum_cons, List.sum_cons, hs.size_eq, ih]

theorem forall_complete_of_alike (h : List.Forall₂ Section.Alike sections sections')
    (hcomplete : ∀ s ∈ sections, s.Complete) : ∀ s ∈ sections', s.Complete := by
  induction h with
  | nil => exact hcomplete
  | cons hs _ ih =>
    obtain ⟨hfirst, hrest⟩ := List.forall_mem_cons.1 hcomplete
    exact List.forall_mem_cons.2 ⟨hs.complete hfirst, ih hrest⟩

/-! ## Drafts -/

namespace Draft

/-- the drafts say the same, but for the flags of the entries -/
structure Agrees (d d' : Draft) : Prop where
  properties : ∀ k, k ≠ .charIndex → d.field k = d'.field k
  index : d.index.map IndexEntry.target = d'.index.map IndexEntry.target

variable {d d' e : Draft} {s s' : Section}

theorem Agrees.refl (d : Draft) : d.Agrees d := ⟨fun _ _ => rfl, rfl⟩

/-- one section taken in by both -/
theorem Agrees.add_same (h : d.Agrees d') (hadd : d.add s = .ok e) : ∃ e', d'.add s = .ok e' ∧ e.Agrees e' := by
  obtain ⟨e', hadd'⟩ := exists_add_iff.2 (exists_add_iff.1 ⟨e, hadd⟩)
  refine ⟨e', hadd', fun k hk => ?_, ?_⟩
  · obtain ⟨hspells, hkeeps⟩ := add_field hadd k
    obtain ⟨hspells', hkeeps'⟩ := add_field hadd' k
    by_cases htag : s.tag = k.tag
    · exact field_unique (hspells htag) (hspells' htag)
    · rw [hkeeps htag, hkeeps' htag, h.properties k hk]
  · obtain ⟨hspells, hkeeps⟩ := add_field hadd .charIndex
    obtain ⟨hspells', hkeeps'⟩ := add_field hadd' .charIndex
    by_cases htag : s.tag = Kind.charIndex.tag
    · rw [Field.index.inj (field_unique (hspells htag) (hspells' htag))]
    · rw [Field.index.inj (hkeeps htag), Field.index.inj (hkeeps' htag), h.index]

/-- **What one step keeps**: alike sections are taken in by both, and then the drafts still agree. -/
theorem Agrees.add (h : d.Agrees d') (hs : Section.Alike s s') (hadd : d.add s = .ok e) :
    ∃ e', d'.add s' = .ok e' ∧ e.Agrees e' := by
  cases hs with
  | same => exact h.add_same hadd
  | unknown _ _ hk hk' _ =>
    rw [add_unknown hk] at hadd
    obtain rfl := Except.ok.inj hadd
    exact ⟨d', add_unknown hk', h⟩
  | flags index index' htarget =>
    rw [add_ofIndex] at hadd
    obtain rfl := Except.ok.inj hadd
    refine ⟨_, add_ofIndex d' index', fun k hk => ?_, htarget⟩
    have hk' := h.properties k hk
    cases k with
    | charIndex => exact absurd rfl hk
    | _ => exact hk'

/-- **What a whole run keeps.** -/
theorem Agrees.addAll (h : d.Agrees d') (hs : List.Forall₂ Section.Alike sections sections')
    (hadd : d.addAll sections = .ok e) : ∃ e', d'.addAll sections' = .ok e' ∧ e.Agrees e' := by
  induction hs generalizing d d' with
  | nil =>
    obtain rfl := Except.ok.inj hadd
    exact ⟨d', rfl, h⟩
  | cons hs _ ih =>
    obtain ⟨d1, hfirst, hrest⟩ := addAll_cons_eq_ok hadd
    obtain ⟨d1', hfirst', h1⟩ := h.add hs hfirst
    obtain ⟨e', hrest', he⟩ := ih h1 hrest
    exact ⟨e', by rw [Draft.addAll, hfirst']; exact hrest', he⟩

end Draft

/-! ## Records -/

theorem IndexEntry.read_eq_of_target {e e' : IndexEntry} (file : Array UInt8) (h : e.target = e'.target) :
    e.read file = e'.read file := by
  obtain ⟨hcode, hoffset⟩ := Prod.mk.inj h
  rw [read, read, hcode, hoffset]

/-- entries that are read alike, whatever their flags, yield the same list -/
theorem filterMap_eq_of_target {α : Type} {f f' : IndexEntry → Option α} {index index' : List IndexEntry}
    (htarget : index.map IndexEntry.target = index'.map IndexEntry.target)
    (h : ∀ e ∈ index, ∀ e', e.target = e'.target → f e = f' e') : index.filterMap f = index'.filterMap f' := by
  induction index generalizing index' with
  | nil =>
    obtain rfl := List.map_eq_nil_iff.1 htarget.symm
    rfl
  | cons e index ih =>
    cases index' with
    | nil => cases htarget
    | cons e' index' =>
      obtain ⟨hfirst, hrest⟩ := List.cons.inj htarget
      obtain ⟨hhead, htail⟩ := List.forall_mem_cons.1 h
      rw [List.filterMap_cons, List.filterMap_cons, hhead e' hfirst, ih hrest htail]

/-! ## Files -/

namespace Layout.Alike

variable {l l' : Layout} {index : List IndexEntry}

theorem dataStart_eq (h : l.Alike l' index) : l.dataStart = l'.dataStart := by
  rw [dataStart, dataStart, sum_size_eq_of_alike h.sections]

theorem length_eq (h : l.Alike l' index) : l.bytes.length = l'.bytes.length := by
  obtain ⟨length, length', rest, rest', htail, htail', hrest⟩ := h.tails
  rw [length_bytes htail, length_bytes htail', h.dataStart_eq, hrest]

/-- every entry of the index is read alike -/
theorem read_eq (h : l.Alike l' index) (hoffsets : ∀ e ∈ index, l.dataStart ≤ e.offset.toNat) {e e' : IndexEntry}
    (he : e ∈ index) (htarget : e.target = e'.target) : e.read l.bytes.toArray = e'.read l'.bytes.toArray := by
  have hread : e.read l.bytes.toArray = e.read l'.bytes.toArray :=
    IndexEntry.read_congr h.length_eq fun i hi => h.records i (Nat.le_trans (hoffsets e he) hi.1) ⟨e, he, hi⟩
  rw [hread, IndexEntry.read_eq_of_target _ htarget]

/-- drafts that agree lead to one font and one list of warnings -/
theorem finish_eq (h : l.Alike l' index) (hoffsets : ∀ e ∈ index, l.dataStart ≤ e.offset.toNat) {d d' : Draft}
    (hindex : d.index = index) (hd : d.Agrees d') :
    finish l.bytes.toArray d .glyphData = finish l'.bytes.toArray d' .glyphData := by
  subst hindex
  have hglyphs : d.index.filterMap (IndexEntry.glyph? l.bytes.toArray) =
      d'.index.filterMap (IndexEntry.glyph? l'.bytes.toArray) := by
    refine filterMap_eq_of_target hd.index fun e he e' htarget => ?_
    rw [IndexEntry.glyph?, IndexEntry.glyph?, h.read_eq hoffsets he htarget]
  have hwarnings : d.index.filterMap (IndexEntry.warning? l.bytes.toArray) =
      d'.index.filterMap (IndexEntry.warning? l'.bytes.toArray) := by
    refine filterMap_eq_of_target hd.index fun e he e' htarget => ?_
    rw [IndexEntry.warning?, IndexEntry.warning?, h.read_eq hoffsets he htarget]
  rw [finish, finish, readGlyphs, readGlyphs, hglyphs, hwarnings, Draft.toProperties_congr hd.properties]

end Layout.Alike

/-- **Bytes that are not read do not matter.** Let a file be accepted and reach a `DATA` header, and let no offset of its
index point in front of the records. Then every file of its length that differs at most in the flags of index entries, in
the names and payloads of unknown sections, in the length field of the `DATA` header, and in bytes behind it that no
record covers is accepted with an equal font and the same warnings. -/
theorem unread_bytes_do_not_matter (file : List UInt8) (parsed : Parsed) (h : parse file = .ok parsed) (l l' : Layout)
    (index : List IndexEntry) (hl : l.Describes file) (hindex : l.HasIndex index)
    (hoffsets : ∀ e ∈ index, l.dataStart ≤ e.offset.toNat) (halike : l.Alike l' index) :
    l'.bytes.length = file.length ∧ parse l'.bytes = .ok parsed := by
  obtain ⟨d, hadd, hfinish⟩ := exists_draft_of_parse h hl
  obtain ⟨d', hadd', hagrees⟩ := (Draft.Agrees.refl {}).addAll halike.sections hadd
  have hl' : l'.Describes l'.bytes := ⟨rfl, forall_complete_of_alike halike.sections hl.2⟩
  obtain ⟨length, length', rest, rest', htail, htail', -⟩ := halike.tails
  rw [hl.1, htail] at hfinish
  refine ⟨by rw [hl.1, halike.length_eq], ?_⟩
  calc parse l'.bytes = finish l'.bytes.toArray d' l'.tail.ending := by
        rw [hl'.parse_eq, hadd']
        rfl
    _ = finish l.bytes.toArray d .glyphData := by
        rw [htail', halike.finish_eq hoffsets ((Layout.hasIndex_draft hadd).unique hindex) hagrees]
        rfl
    _ = .ok parsed := hfinish

set_option maxRecDepth 8000 in
/-- another unknown section, flags, another length, and other bytes in front of, between and behind the two records; one
entry is out of reach in both files -/
theorem unread_bytes_do_not_matter_gaps :
    let first : Glyph := ⟨65, 3, 2, 1, -1, 4, #[0xB8]⟩
    let second : Glyph := ⟨66, 8, 2, 0, 0, 9, #[0xFF, 0x01]⟩
    let p : Properties := ⟨"A", "", 16, "", 8, 16, 12, 4⟩
    let index : List IndexEntry := [⟨66, 0, 156⟩, ⟨65, 0, 4000⟩, ⟨65, 0, 144⟩]
    let l : Layout :=
      ⟨propertySections p ++ [⟨⟨0x58, 0x58, 0x58, 0x58⟩, [1, 2]⟩, Section.ofIndex index],
        .glyphData 0 ([0] ++ first.encode ++ [0] ++ second.encode ++ [0])⟩
    let l' : Layout :=
      ⟨propertySections p ++
          [⟨⟨0x59, 0x59, 0x59, 0x59⟩, [3, 4]⟩, Section.ofIndex [⟨66, 1, 156⟩, ⟨65, 2, 4000⟩, ⟨65, 3, 144⟩]],
        .glyphData 7 ([5] ++ first.encode ++ [6] ++ second.encode ++ [7])⟩
    l.Alike l' index ∧ parse l'.bytes = .ok ⟨⟨p, #[first, second]⟩, [.pastEnd 65]⟩ := by
  intro first second p index l l'
  have hl : l.Describes l.bytes := ⟨rfl, by decide⟩
  have halike : l.Alike l' index := by
    refine ⟨?_, ⟨_, _, _, _, rfl, rfl, rfl⟩, ?_⟩
    · refine List.rel_append (List.forall₂_same.2 fun s _ => .same s) ?_
      exact .cons (.unknown _ _ rfl rfl rfl) (.cons (.flags _ _ rfl) .nil)
    · have hall : ∀ i < l.bytes.length, l.dataStart ≤ i → (∃ e ∈ index, e.Covers l.bytes i) →
          l.bytes[i]? = l'.bytes[i]? := by decide +kernel
      rintro i hi ⟨e, he, hcovers⟩
      exact hall i hcovers.2.1 hi ⟨e, he, hcovers⟩
  have hparse : parse l.bytes = .ok ⟨⟨p, #[first, second]⟩, [.pastEnd 65]⟩ := by cbv
  exact ⟨halike, (unread_bytes_do_not_matter l.bytes _ hparse l l' index hl (by decide) (by decide) halike).2⟩

end GlyphImage.Pff2
