/-
What the payloads of a file's sections say. Reading a payload undoes writing it, for texts (`textOf_eq_ok_iff`), numbers
(`numberOf_eq_ok_iff`) and the character index (`indexOf_eq_ok_iff`). `Draft.field` is what a draft holds for one kind
of section: taking in a section sets the field of its kind and no other (`Draft.add_field`), so that after a run of
sections each field is what the last section of its kind says (`Draft.addAll_field`).
-/
import GlyphImage.Pff2.Layout
import GlyphImage.Proofs.Results
import GlyphImage.Proofs.Text.Utf8
import Mathlib

namespace GlyphImage.Pff2

/-! ## Texts and numbers -/

/-- every payload holds one text, and it is what trimming leaves -/
theorem holdsText_iff {payload text : List UInt8} : HoldsText payload text ↔ trimNul payload = text := by
  unfold trimNul
  constructor
  · rintro (rfl | ⟨rfl, hlast⟩)
    · rw [if_pos List.getLast?_concat, List.dropLast_concat]
    · exact if_neg hlast
  · split_ifs with hlast
    · rintro rfl
      exact Or.inl (List.dropLast_append_getLast? 0 hlast).symm
    · rintro rfl
      exact Or.inr ⟨rfl, hlast⟩

theorem HoldsText.unique {payload text text' : List UInt8} (h : HoldsText payload text)
    (h' : HoldsText payload text') : text = text' :=
  (holdsText_iff.1 h).symm.trans (holdsText_iff.1 h')

theorem textOf_eq_ok_iff {payload : List UInt8} {text : String} :
    textOf payload = .ok text ↔ HoldsText payload (Utf8.encode text) := by
  rw [holdsText_iff, ← Utf8.decode_eq_ok_iff, textOf]
  cases Utf8.decode (trimNul payload) with
  | ok t => simp only [Except.ok.injEq]
  | error fault => simp only [reduceCtorEq]

theorem numberOf_eq_ok_iff {payload : List UInt8} {n : UInt16} :
    numberOf payload = .ok n ↔ Bytes.ofUInt16 n = payload := by
  constructor
  · intro h
    unfold numberOf at h
    split at h
    · cases h; exact Bytes.ofUInt16_uint16 _ _
    · cases h
  · rintro rfl
    obtain ⟨hi, lo, hbytes, hvalue⟩ := Bytes.exists_ofUInt16 n
    rw [hbytes, numberOf, hvalue]

theorem exists_numberOf_iff {payload : List UInt8} : (∃ n, numberOf payload = .ok n) ↔ payload.length = 2 := by
  constructor
  · rintro ⟨n, h⟩
    rw [← numberOf_eq_ok_iff.1 h, Bytes.length_ofUInt16]
  · intro h
    match payload, h with
    | [hi, lo], _ => exact ⟨_, rfl⟩

/-! ## The character index -/

namespace IndexEntry

@[simp] theorem length_encode (e : IndexEntry) : e.encode.length = 9 := rfl

theorem decodeAll_encode_append (e : IndexEntry) (payload : List UInt8) :
    decodeAll (e.encode ++ payload) = (decodeAll payload).map (e :: ·) := by
  obtain ⟨c1, c2, c3, c4, hcode, hcodeValue⟩ := Bytes.exists_ofUInt32 e.code
  obtain ⟨o1, o2, o3, o4, hoffset, hoffsetValue⟩ := Bytes.exists_ofUInt32 e.offset
  simp only [encode, hcode, hoffset, List.cons_append, List.nil_append, decodeAll, hcodeValue, hoffsetValue]

theorem decodeAll_flatMap_encode (index : List IndexEntry) : decodeAll (index.flatMap encode) = some index := by
  induction index with
  | nil => rfl
  | cons e index ih => rw [List.flatMap_cons, decodeAll_encode_append, ih]; rfl

theorem eq_flatMap_of_decodeAll {payload : List UInt8} {index : List IndexEntry} (h : decodeAll payload = some index) :
    index.flatMap encode = payload := by
  induction payload using decodeAll.induct generalizing index with
  | case1 => cases h; rfl
  | case2 c1 c2 c3 c4 f o1 o2 o3 o4 rest ih =>
    obtain ⟨later, hlater, rfl⟩ := Option.map_eq_some_iff.1 h
    rw [List.flatMap_cons, ih hlater, encode, Bytes.ofUInt32_uint32, Bytes.ofUInt32_uint32]
    rfl
  | case3 payload hnil hcons => rw [decodeAll] at h <;> first | cases h | assumption

/-- the entries of an index are determined by its bytes -/
theorem flatMap_encode_injective {index index' : List IndexEntry} (h : index.flatMap encode = index'.flatMap encode) :
    index = index' := by
  have hdecode := decodeAll_flatMap_encode index
  rw [h, decodeAll_flatMap_encode] at hdecode
  exact (Option.some.inj hdecode).symm

theorem exists_decodeAll (count : Nat) (payload : List UInt8) (h : payload.length = 9 * count) :
    ∃ index, decodeAll payload = some index := by
  induction count generalizing payload with
  | zero => rw [List.length_eq_zero_iff.1 h]; exact ⟨[], rfl⟩
  | succ count ih =>
    obtain ⟨head, rest, rfl, hhead⟩ : ∃ head rest, payload = head ++ rest ∧ head.length = 9 :=
      ⟨payload.take 9, payload.drop 9, (List.take_append_drop 9 payload).symm, by rw [List.length_take]; omega⟩
    obtain ⟨index, hindex⟩ := ih rest (by rw [List.length_append] at h; omega)
    match head, hhead with
    | [c1, c2, c3, c4, f, o1, o2, o3, o4], _ =>
      simp only [List.cons_append, List.nil_append, decodeAll, hindex]
      exact ⟨_, rfl⟩

theorem length_flatMap_encode (index : List IndexEntry) : (index.flatMap encode).length = 9 * index.length := by
  induction index with
  | nil => rfl
  | cons e index ih =>
    rw [List.flatMap_cons, List.length_append, ih, length_encode, List.length_cons]
    omega

end IndexEntry

theorem indexOf_eq_ok_iff {payload : List UInt8} {index : List IndexEntry} :
    indexOf payload = .ok index ↔ index.flatMap IndexEntry.encode = payload := by
  constructor
  · intro h
    unfold indexOf at h
    split at h
    · rename_i i hi; cases h; exact IndexEntry.eq_flatMap_of_decodeAll hi
    · cases h
  · rintro rfl
    rw [indexOf, IndexEntry.decodeAll_flatMap_encode]

theorem exists_indexOf_iff {payload : List UInt8} : (∃ index, indexOf payload = .ok index) ↔ 9 ∣ payload.length := by
  constructor
  · rintro ⟨index, h⟩
    rw [← indexOf_eq_ok_iff.1 h, IndexEntry.length_flatMap_encode]
    exact Nat.dvd_mul_right 9 index.length
  · rintro ⟨count, h⟩
    obtain ⟨index, hindex⟩ := IndexEntry.exists_decodeAll count payload h
    exact ⟨index, by rw [indexOf, hindex]⟩

/-! ## Drafts -/

/-- what a draft holds for one kind of section -/
inductive Field where
  | text (t : String)
  | number (n : UInt16)
  | index (entries : List IndexEntry)
  /-- nothing is kept for `DATA` -/
  | nothing

/-- the field is written as this payload -/
def Field.Spells (payload : List UInt8) : Field → Prop
  | text t => HoldsText payload (Utf8.encode t)
  | number n => Bytes.ofUInt16 n = payload
  | index entries => entries.flatMap IndexEntry.encode = payload
  | nothing => True

/-- what a draft holds for a kind of section -/
def Draft.field (d : Draft) : Kind → Field
  | .name => .text d.name
  | .family => .text d.family
  | .weight => .text d.weight
  | .pointSize => .number d.pointSize
  | .maxCharWidth => .number d.maxCharWidth
  | .maxCharHeight => .number d.maxCharHeight
  | .ascent => .number d.ascent
  | .descent => .number d.descent
  | .charIndex => .index d.index
  | .glyphData => .nothing

theorem Tag.kind?_eq_some_iff {t : Tag} {k : Kind} : t.kind? = some k ↔ t = k.tag := by
  constructor
  · intro h
    have hfound := List.find?_some h
    exact (of_decide_eq_true hfound).symm
  · rintro rfl
    cases k <;> rfl

theorem Kind.tag_injective {j k : Kind} (h : j.tag = k.tag) : j = k := by
  have hj : j.tag.kind? = some j := Tag.kind?_eq_some_iff.2 rfl
  rw [h, Tag.kind?_eq_some_iff.2 rfl] at hj
  exact (Option.some.inj hj).symm

/-- the section of a character index -/
def Section.ofIndex (index : List IndexEntry) : Section := ⟨Kind.charIndex.tag, index.flatMap IndexEntry.encode⟩

theorem Section.size_ofIndex (index : List IndexEntry) : (ofIndex index).size = 8 + 9 * index.length := by
  rw [size, ofIndex, IndexEntry.length_flatMap_encode]

theorem Section.sound_ofIndex (index : List IndexEntry) : (ofIndex index).Sound := by
  intro k hk
  obtain rfl : Kind.charIndex = k := Kind.tag_injective (Tag.kind?_eq_some_iff.1 hk)
  exact exists_indexOf_iff.1 ⟨index, indexOf_eq_ok_iff.2 rfl⟩

namespace Draft

/-- a draft consists of its fields -/
theorem ext_field {d d' : Draft} (h : ∀ k, d.field k = d'.field k) : d = d' := by
  obtain ⟨⟨name, family, pointSize, weight, maxCharWidth, maxCharHeight, ascent, descent⟩, index⟩ := d
  obtain ⟨⟨name', family', pointSize', weight', maxCharWidth', maxCharHeight', ascent', descent'⟩, index'⟩ := d'
  obtain rfl := Field.text.inj (h .name)
  obtain rfl := Field.text.inj (h .family)
  obtain rfl := Field.text.inj (h .weight)
  obtain rfl := Field.number.inj (h .pointSize)
  obtain rfl := Field.number.inj (h .maxCharWidth)
  obtain rfl := Field.number.inj (h .maxCharHeight)
  obtain rfl := Field.number.inj (h .ascent)
  obtain rfl := Field.number.inj (h .descent)
  obtain rfl := Field.index.inj (h .charIndex)
  rfl

/-- the properties are all fields but the index -/
theorem toProperties_congr {d d' : Draft} (h : ∀ k, k ≠ .charIndex → d.field k = d'.field k) :
    d.toProperties = d'.toProperties := by
  have hsame : d = { d' with index := d.index } := by
    refine ext_field fun k => ?_
    cases k with
    | charIndex => rfl
    | _ => exact h _ (by decide)
  rw [hsame]

/-- what two drafts hold for a kind is the same if both are written as the same payload -/
theorem field_unique {d d' : Draft} {k : Kind} {payload : List UInt8} (h : (d.field k).Spells payload)
    (h' : (d'.field k).Spells payload) : d.field k = d'.field k := by
  cases k with
  | name | family | weight => exact congrArg Field.text (Utf8.encode_injective (HoldsText.unique h h'))
  | pointSize | maxCharWidth | maxCharHeight | ascent | descent =>
    exact congrArg Field.number (Bytes.ofUInt16_injective (h.trans h'.symm))
  | charIndex => exact congrArg Field.index (IndexEntry.flatMap_encode_injective (h.trans h'.symm))
  | glyphData => rfl

/-- a payload that spells what a draft holds can be decoded -/
theorem admits_of_spells {d : Draft} {k : Kind} {payload : List UInt8} (h : (d.field k).Spells payload) :
    k.Admits payload := by
  cases k with
  | name | family | weight => exact ⟨_, h⟩
  | pointSize | maxCharWidth | maxCharHeight | ascent | descent =>
    exact exists_numberOf_iff.1 ⟨_, numberOf_eq_ok_iff.2 h⟩
  | charIndex => exact exists_indexOf_iff.1 ⟨_, indexOf_eq_ok_iff.2 h⟩
  | glyphData => trivial

/-- the draft `d'` is `d` but for what it holds for sections of kind `k`, and that is what the payload says -/
def Sets (d : Draft) (k : Kind) (payload : List UInt8) (d' : Draft) : Prop :=
  (d'.field k).Spells payload ∧ ∀ j, j ≠ k → d'.field j = d.field j

/-- a known section sets the field of its kind and no other -/
theorem add_sets {d d' : Draft} {s : Section} {k : Kind} (hk : s.tag.kind? = some k) (h : d.add s = .ok d') :
    d.Sets k s.payload d' := by
  unfold add at h
  cases k with
  | name | family | weight =>
    simp only [hk] at h
    obtain ⟨text, htext, rfl⟩ := map_eq_ok h
    exact ⟨textOf_eq_ok_iff.1 htext, fun j hj => by cases j <;> first | rfl | exact absurd rfl hj⟩
  | pointSize | maxCharWidth | maxCharHeight | ascent | descent =>
    simp only [hk] at h
    obtain ⟨n, hn, rfl⟩ := map_eq_ok h
    exact ⟨numberOf_eq_ok_iff.1 hn, fun j hj => by cases j <;> first | rfl | exact absurd rfl hj⟩
  | charIndex =>
    simp only [hk] at h
    obtain ⟨index, hindex, rfl⟩ := map_eq_ok h
    exact ⟨indexOf_eq_ok_iff.1 hindex, fun j hj => by cases j <;> first | rfl | exact absurd rfl hj⟩
  | glyphData =>
    simp only [hk, Except.ok.injEq] at h
    subst h
    exact ⟨trivial, fun _ _ => rfl⟩

/-- an unknown section changes nothing -/
theorem add_unknown {d : Draft} {s : Section} (hk : s.tag.kind? = none) : d.add s = .ok d := by
  simp only [add, hk]

/-- **What one section changes**: the field of its own kind becomes what it says, every other field stays. -/
theorem add_field {d d' : Draft} {s : Section} (h : d.add s = .ok d') (k : Kind) :
    (s.tag = k.tag → (d'.field k).Spells s.payload) ∧ (s.tag ≠ k.tag → d'.field k = d.field k) := by
  cases hk : s.tag.kind? with
  | none =>
    rw [add_unknown hk] at h
    obtain rfl := Except.ok.inj h
    refine ⟨fun ht => ?_, fun _ => rfl⟩
    rw [Tag.kind?_eq_some_iff.2 ht] at hk
    cases hk
  | some j =>
    obtain ⟨hspells, hother⟩ := add_sets hk h
    have hj := Tag.kind?_eq_some_iff.1 hk
    refine ⟨fun ht => ?_, fun ht => hother k ?_⟩
    · rw [← Kind.tag_injective (hj.symm.trans ht)]
      exact hspells
    · rintro rfl
      exact ht hj

theorem add_ofIndex (d : Draft) (index : List IndexEntry) :
    d.add (Section.ofIndex index) = .ok { d with index := index } := by
  have hindex : indexOf (Section.ofIndex index).payload = .ok index := indexOf_eq_ok_iff.2 rfl
  have hk : (Section.ofIndex index).tag.kind? = some .charIndex := rfl
  simp only [add, hk, hindex]
  rfl

/-- a section can be taken in if and only if its payload can be decoded -/
theorem exists_add_iff {d : Draft} {s : Section} : (∃ d', d.add s = .ok d') ↔ s.Sound := by
  constructor
  · rintro ⟨d', h⟩ k hk
    exact admits_of_spells (add_sets hk h).1
  · intro hs
    cases hk : s.tag.kind? with
    | none => exact ⟨d, add_unknown hk⟩
    | some k =>
      have hadmits := hs k hk
      unfold add
      cases k with
      | name | family | weight =>
        obtain ⟨text, htext⟩ := hadmits
        simp only [hk]
        exact exists_map_eq_ok ⟨text, textOf_eq_ok_iff.2 htext⟩
      | pointSize | maxCharWidth | maxCharHeight | ascent | descent =>
        simp only [hk]
        exact exists_map_eq_ok (exists_numberOf_iff.2 hadmits)
      | charIndex =>
        simp only [hk]
        exact exists_map_eq_ok (exists_indexOf_iff.2 hadmits)
      | glyphData =>
        simp only [hk]
        exact ⟨d, rfl⟩

/-! ## Runs of sections -/

theorem addAll_cons_eq_ok {d d' : Draft} {s : Section} {rest : List Section} (h : d.addAll (s :: rest) = .ok d') :
    ∃ d1, d.add s = .ok d1 ∧ d1.addAll rest = .ok d' := by
  rw [addAll] at h
  cases hadd : d.add s with
  | error e => rw [hadd] at h; cases h
  | ok d1 => rw [hadd] at h; exact ⟨d1, rfl, h⟩

/-- sections can be taken in if and only if the payloads of all of them can be decoded -/
theorem exists_addAll_iff {d : Draft} {sections : List Section} :
    (∃ d', d.addAll sections = .ok d') ↔ ∀ s ∈ sections, s.Sound := by
  induction sections generalizing d with
  | nil => exact ⟨fun _ s hs => absurd hs List.not_mem_nil, fun _ => ⟨d, rfl⟩⟩
  | cons s rest ih =>
    constructor
    · rintro ⟨d', h⟩ s' hs'
      obtain ⟨d1, hadd, hrest⟩ := addAll_cons_eq_ok h
      rcases List.mem_cons.1 hs' with rfl | hs'
      · exact exists_add_iff.1 ⟨d1, hadd⟩
      · exact ih.1 ⟨d', hrest⟩ s' hs'
    · intro hs
      obtain ⟨d1, hadd⟩ := exists_add_iff.2 (hs s List.mem_cons_self)
      obtain ⟨d', hrest⟩ := ih.2 fun s' hs' => hs s' (List.mem_cons_of_mem s hs')
      exact ⟨d', by rw [addAll, hadd]; exact hrest⟩

/-- **The last section of a kind decides its field**; without one the field stays as it was. -/
theorem addAll_field {d d' : Draft} {sections : List Section} (h : d.addAll sections = .ok d') (k : Kind) :
    match (sections.filter fun s => s.tag = k.tag).getLast? with
    | some s => (d'.field k).Spells s.payload
    | none => d'.field k = d.field k := by
  induction sections generalizing d with
  | nil => cases h; rfl
  | cons s rest ih =>
    obtain ⟨d1, hadd, hrest⟩ := addAll_cons_eq_ok h
    have hlater := ih hrest
    obtain ⟨hsame, hother⟩ := add_field hadd k
    by_cases ht : s.tag = k.tag
    · rw [List.filter_cons_of_pos (by simpa using ht), List.getLast?_cons]
      cases hlast : (rest.filter fun s => s.tag = k.tag).getLast? with
      | none =>
        simp only [hlast] at hlater
        simp only [Option.getD_none, hlater]
        exact hsame ht
      | some last =>
        simp only [hlast] at hlater
        exact hlater
    · rw [List.filter_cons_of_neg (by simpa using ht)]
      cases hlast : (rest.filter fun s => s.tag = k.tag).getLast? with
      | none =>
        simp only [hlast] at hlater
        exact hlater.trans (hother ht)
      | some last =>
        simp only [hlast] at hlater
        exact hlater

/-- **Sections that spell a draft are read as this draft**, in whatever order they stand, if no kind is left out. -/
theorem addAll_of_spells {d : Draft} {sections : List Section}
    (hspells : ∀ s ∈ sections, ∀ k, s.tag = k.tag → (d.field k).Spells s.payload)
    (hall : ∀ k : Kind, k ≠ .glyphData → ∃ s ∈ sections, s.tag = k.tag) : Draft.addAll {} sections = .ok d := by
  have hsound : ∀ s ∈ sections, s.Sound := fun s hs k hk =>
    admits_of_spells (hspells s hs k (Tag.kind?_eq_some_iff.1 hk))
  obtain ⟨d', hd'⟩ := exists_addAll_iff.2 hsound
  rw [hd']
  refine congrArg Except.ok (ext_field fun k => ?_)
  by_cases hk : k = .glyphData
  · subst hk
    rfl
  · obtain ⟨s, hs, htag⟩ := hall k hk
    have hmem : s ∈ sections.filter fun s => s.tag = k.tag := List.mem_filter.2 ⟨hs, decide_eq_true htag⟩
    have hfield := addAll_field hd' k
    cases hlast : (sections.filter fun s => s.tag = k.tag).getLast? with
    | none => exact absurd (List.getLast?_eq_none_iff.1 hlast) (List.ne_nil_of_mem hmem)
    | some last =>
      rw [hlast] at hfield
      obtain ⟨hin, hkind⟩ := List.mem_filter.1 (List.mem_of_getLast? hlast)
      exact field_unique hfield (hspells last hin k (of_decide_eq_true hkind))

end Draft

end GlyphImage.Pff2
