/-
Which error a refused file gets. `first_fault_is_reported`: that of its first fault from the left, and more bytes at the
end of the file change nothing about an error that is not the lack of bytes.

`FirstFault` says what the first fault of a file is, apart from any reader: the magic is missing, or sound sections are
followed by bytes at which something is wrong (`FaultAt`). Of one section the header comes first, then its length, then
its payload. `parse_eq_error_iff` ties the two together; it rests on the first faulty payload of a run of sections
(`Draft.addAll_eq_error_iff`) and on how the sections stop (`Section.front_eq_shortHeader_iff`,
`Section.front_eq_truncated_iff`).
-/
import GlyphImage.Proofs.Pff2.Grammar

namespace GlyphImage.Pff2

/-! ## Faults -/

/-- the error for a payload that cannot be decoded as a section of this kind -/
def Kind.Blames (k : Kind) (payload : List UInt8) (e : ParseError) : Prop :=
  match k with
  | .name | .family | .weight =>
    ∃ text fault, HoldsText payload text ∧ Utf8.decode text = .error fault ∧ e = .invalidText fault
  | .pointSize | .maxCharWidth | .maxCharHeight | .ascent | .descent => e = .invalidNumberLength payload.length
  | .charIndex => e = .invalidCharacterIndex
  | .glyphData => False

/-- the payload of a section of a known name cannot be decoded, and this is the error for it -/
def Section.Faulty (s : Section) (e : ParseError) : Prop :=
  ∃ k : Kind, s.tag = k.tag ∧ ¬k.Admits s.payload ∧ k.Blames s.payload e

/-- what is wrong where a section should start, when these bytes are left -/
inductive FaultAt (bytes : List UInt8) : ParseError → Prop where
  /-- some bytes are left, but too few for a header -/
  | shortHeader (hsome : 1 ≤ bytes.length) (hfew : bytes.length ≤ 7) : FaultAt bytes .insufficientHeaderBytes
  /-- a header of any name but `DATA` claims more bytes than follow it -/
  | truncated (tag : Tag) (length : UInt32) (rest : List UInt8) (htag : tag ≠ Kind.glyphData.tag)
      (hbytes : bytes = tag.bytes ++ Bytes.ofUInt32 length ++ rest) (hlength : rest.length < length.toNat) :
      FaultAt bytes (.truncatedSection tag)
  /-- the section is complete, and its payload cannot be decoded -/
  | payload (s : Section) (rest : List UInt8) (e : ParseError) (hcomplete : s.Complete)
      (hbytes : bytes = s.encode ++ rest) (hfault : s.Faulty e) : FaultAt bytes e

/-- the first fault of a file: all sections in front of it are complete and sound -/
inductive FirstFault (file : List UInt8) : ParseError → Prop where
  | magic (hmagic : ¬magic <+: file) : FirstFault file .badMagicBytes
  | later (sections : List Section) (rest : List UInt8) (e : ParseError) (hcomplete : ∀ s ∈ sections, s.Complete)
      (hsound : ∀ s ∈ sections, s.Sound) (hfile : file = magic ++ sections.flatMap Section.encode ++ rest)
      (hfault : FaultAt rest e) : FirstFault file e

/-! ## Payloads -/

namespace Kind

theorem Blames.unique {k : Kind} {payload : List UInt8} {e e' : ParseError} (h : k.Blames payload e)
    (h' : k.Blames payload e') : e = e' := by
  cases k with
  | name | family | weight =>
    obtain ⟨text, fault, htext, hfault, rfl⟩ := h
    obtain ⟨text', fault', htext', hfault', rfl⟩ := h'
    obtain rfl := htext.unique htext'
    rw [Except.error.inj (hfault.symm.trans hfault')]
  | pointSize | maxCharWidth | maxCharHeight | ascent | descent => exact Eq.trans h (Eq.symm h')
  | charIndex => exact Eq.trans h (Eq.symm h')
  | glyphData => exact absurd h id

theorem blames_of_textOf {payload : List UInt8} {e : ParseError} (h : textOf payload = .error e) :
    ∃ text fault, HoldsText payload text ∧ Utf8.decode text = .error fault ∧ e = .invalidText fault := by
  unfold textOf at h
  split at h
  · cases h
  · rename_i fault hfault
    exact ⟨_, fault, holdsText_iff.2 rfl, hfault, (Except.error.inj h).symm⟩

theorem blames_of_numberOf {payload : List UInt8} {e : ParseError} (h : numberOf payload = .error e) :
    e = .invalidNumberLength payload.length := by
  unfold numberOf at h
  split at h
  · cases h
  · exact (Except.error.inj h).symm

theorem blames_of_indexOf {payload : List UInt8} {e : ParseError} (h : indexOf payload = .error e) :
    e = .invalidCharacterIndex := by
  unfold indexOf at h
  split at h
  · cases h
  · exact (Except.error.inj h).symm

end Kind

namespace Draft

theorem blames_of_add {d : Draft} {s : Section} {k : Kind} {e : ParseError} (hk : s.tag.kind? = some k)
    (h : d.add s = .error e) : k.Blames s.payload e := by
  unfold add at h
  cases k with
  | name | family | weight =>
    simp only [hk] at h
    exact Kind.blames_of_textOf (map_eq_error_iff.1 h)
  | pointSize | maxCharWidth | maxCharHeight | ascent | descent =>
    simp only [hk] at h
    exact Kind.blames_of_numberOf (map_eq_error_iff.1 h)
  | charIndex =>
    simp only [hk] at h
    exact Kind.blames_of_indexOf (map_eq_error_iff.1 h)
  | glyphData =>
    simp only [hk] at h
    cases h

/-- a section is refused if and only if its payload cannot be decoded, with the error for its kind -/
theorem add_eq_error_iff {d : Draft} {s : Section} {e : ParseError} : d.add s = .error e ↔ s.Faulty e := by
  constructor
  · intro h
    cases hk : s.tag.kind? with
    | none =>
      rw [add_unknown hk] at h
      cases h
    | some k =>
      refine ⟨k, Tag.kind?_eq_some_iff.1 hk, fun hadmits => ?_, blames_of_add hk h⟩
      have hsound : s.Sound := fun j hj => Option.some.inj (hk.symm.trans hj) ▸ hadmits
      obtain ⟨d', hd'⟩ := exists_add_iff.2 hsound
      rw [h] at hd'
      cases hd'
  · rintro ⟨k, htag, hadmits, hblames⟩
    have hk := Tag.kind?_eq_some_iff.2 htag
    cases hadd : d.add s with
    | ok d' => exact absurd (exists_add_iff.1 ⟨d', hadd⟩ k hk) hadmits
    | error e' => rw [(blames_of_add hk hadd).unique hblames]

theorem addAll_append (d : Draft) (sections later : List Section) :
    d.addAll (sections ++ later) = (d.addAll sections).bind fun d' => d'.addAll later := by
  induction sections generalizing d with
  | nil => rfl
  | cons s rest ih =>
    rw [List.cons_append, addAll, addAll]
    cases d.add s with
    | error e => rfl
    | ok d' => exact ih d'

/-- **The first section that cannot be decoded decides the error** of a run of sections. -/
theorem addAll_eq_error_iff {d : Draft} {sections : List Section} {e : ParseError} :
    d.addAll sections = .error e ↔
      ∃ before s after, sections = before ++ s :: after ∧ (∀ s' ∈ before, s'.Sound) ∧ s.Faulty e := by
  constructor
  · intro h
    induction sections generalizing d with
    | nil => cases h
    | cons s rest ih =>
      rw [addAll] at h
      cases hadd : d.add s with
      | error e' =>
        simp only [hadd] at h
        exact ⟨[], s, rest, rfl, by simp, add_eq_error_iff.1 (hadd.trans h)⟩
      | ok d' =>
        simp only [hadd] at h
        obtain ⟨before, s', after, rfl, hbefore, hfault⟩ := ih h
        refine ⟨s :: before, s', after, rfl, fun s0 hs0 => ?_, hfault⟩
        rcases List.mem_cons.1 hs0 with rfl | hs0
        · exact exists_add_iff.1 ⟨d', hadd⟩
        · exact hbefore s0 hs0
  · rintro ⟨before, s, after, rfl, hbefore, hfault⟩
    obtain ⟨d', hd'⟩ := (exists_addAll_iff (d := d)).2 hbefore
    rw [addAll_append, hd', Except.bind, addAll, add_eq_error_iff.2 hfault]

end Draft

/-! ## How the sections stop -/

namespace Section

theorem front_eq_shortHeader_iff {bytes : List UInt8} :
    front bytes = .stop .shortHeader ↔ 1 ≤ bytes.length ∧ bytes.length ≤ 7 := by
  rcases Nat.lt_or_ge bytes.length 8 with hshort | hlong
  · rw [front_of_length_lt hshort, Nat.one_le_iff_ne_zero, Ne, List.length_eq_zero_iff]
    split_ifs with hempty
    · simp [hempty]
    · exact iff_of_true rfl ⟨hempty, by omega⟩
  · refine iff_of_false (fun h => ?_) (by omega)
    obtain ⟨tag, length, rest, rfl⟩ := exists_header_of_le hlong
    rw [front_header] at h
    split_ifs at h <;> cases h

theorem front_eq_truncated_iff {bytes : List UInt8} {tag : Tag} :
    front bytes = .stop (.truncated tag) ↔ tag ≠ Kind.glyphData.tag ∧ ∃ (length : UInt32) (rest : List UInt8),
      bytes = tag.bytes ++ Bytes.ofUInt32 length ++ rest ∧ rest.length < length.toNat := by
  constructor
  · intro h
    rcases Nat.lt_or_ge bytes.length 8 with hshort | hlong
    · rw [front_of_length_lt hshort] at h
      split_ifs at h <;> cases h
    · obtain ⟨tag', length, rest, rfl⟩ := exists_header_of_le hlong
      rw [front_header] at h
      split_ifs at h with htag hlength
      · cases h
      · cases h
        exact ⟨htag, length, rest, rfl, Nat.lt_of_not_le hlength⟩
  · rintro ⟨htag, length, rest, rfl, hlength⟩
    rw [front_header, if_neg htag, if_neg (Nat.not_le.2 hlength)]

end Section

/-! ## Files -/

theorem firstFault_of_parse {file : List UInt8} {e : ParseError} (h : parse file = .error e) : FirstFault file e := by
  by_cases hmagic : magic <+: file
  · obtain ⟨bytes, rfl⟩ := hmagic
    obtain ⟨sections, rest, ending, rfl, hcomplete, hfront⟩ := Section.exists_sections bytes
    rw [← List.append_assoc, parse_eq_of_front hcomplete hfront] at h
    cases hadd : Draft.addAll {} sections with
    | error e' =>
      rw [hadd] at h
      obtain rfl : e' = e := Except.error.inj h
      obtain ⟨before, s, after, rfl, hbefore, hfault⟩ := Draft.addAll_eq_error_iff.1 hadd
      refine .later before (s.encode ++ (after.flatMap Section.encode ++ rest)) e'
        (fun s' hs' => hcomplete s' (List.mem_append_left _ hs')) hbefore ?_ (.payload s _ e' ?_ rfl hfault)
      · simp only [List.flatMap_append, List.flatMap_cons, List.append_assoc]
      · exact hcomplete s (by simp)
    | ok d =>
      rw [hadd] at h
      have hsound := Draft.exists_addAll_iff.1 ⟨d, hadd⟩
      refine .later sections rest e hcomplete hsound (List.append_assoc _ _ _).symm ?_
      cases ending with
      | endOfFile => cases h
      | glyphData => cases h
      | shortHeader =>
        cases h
        obtain ⟨hsome, hfew⟩ := Section.front_eq_shortHeader_iff.1 hfront
        exact .shortHeader hsome hfew
      | truncated tag =>
        cases h
        obtain ⟨htag, length, later, hbytes, hlength⟩ := Section.front_eq_truncated_iff.1 hfront
        exact .truncated tag length later htag hbytes hlength
  · rw [parse_of_not_magic hmagic] at h
    cases h
    exact .magic hmagic

theorem parse_of_firstFault {file : List UInt8} {e : ParseError} (h : FirstFault file e) : parse file = .error e := by
  cases h with
  | magic hmagic => exact parse_of_not_magic hmagic
  | later sections rest e hcomplete hsound hfile hfault =>
    subst hfile
    obtain ⟨d, hadd⟩ := Draft.exists_addAll_iff.2 hsound
    cases hfault with
    | shortHeader hsome hfew =>
      rw [parse_eq_of_front hcomplete (Section.front_eq_shortHeader_iff.2 ⟨hsome, hfew⟩), hadd]
      rfl
    | truncated tag length later htag hbytes hlength =>
      rw [parse_eq_of_front hcomplete (Section.front_eq_truncated_iff.2 ⟨htag, length, later, hbytes, hlength⟩), hadd]
      rfl
    | payload s later e hs hbytes hfaulty =>
      obtain ⟨after, last, ending, rfl, hafter, hfront⟩ := Section.exists_sections later
      have hall : ∀ s' ∈ sections ++ s :: after, s'.Complete := by
        intro s' hs'
        rcases List.mem_append.1 hs' with hs' | hs'
        · exact hcomplete s' hs'
        · rcases List.mem_cons.1 hs' with rfl | hs'
          · exact hs
          · exact hafter s' hs'
      -- the sections behind the faulty one have no influence
      have hfile : magic ++ sections.flatMap Section.encode ++ rest =
          magic ++ (sections ++ s :: after).flatMap Section.encode ++ last := by
        rw [hbytes]
        simp only [List.flatMap_append, List.flatMap_cons, List.append_assoc]
      rw [hfile, parse_eq_of_front hall hfront,
        Draft.addAll_eq_error_iff.2 ⟨sections, s, after, rfl, hsound, hfaulty⟩]
      rfl

/-- **A file is refused with the error of its first fault**, and only if it has one. -/
theorem parse_eq_error_iff {file : List UInt8} {e : ParseError} : parse file = .error e ↔ FirstFault file e :=
  ⟨firstFault_of_parse, parse_of_firstFault⟩

theorem not_faultAt_badMagicBytes {bytes : List UInt8} : ¬FaultAt bytes .badMagicBytes := by
  rintro ⟨⟩
  rename_i s rest hcomplete hbytes hfault
  obtain ⟨k, -, -, hblames⟩ := hfault
  cases k with
  | name | family | weight =>
    obtain ⟨text, fault, -, -, h⟩ := hblames
    cases h
  | pointSize | maxCharWidth | maxCharHeight | ascent | descent => cases hblames
  | charIndex => cases hblames
  | glyphData => exact hblames

/-! ## More bytes -/

/-- a fault that is not the lack of bytes stays the first one when bytes are added at the end -/
theorem FirstFault.append {file : List UInt8} {e : ParseError} (h : FirstFault file e) (hlength : 12 ≤ file.length)
    (hheader : e ≠ .insufficientHeaderBytes) (htruncated : ∀ tag, e ≠ .truncatedSection tag) (more : List UInt8) :
    FirstFault (file ++ more) e := by
  cases h with
  | magic hmagic =>
    refine .magic fun hprefix => hmagic ?_
    exact List.prefix_of_prefix_length_le hprefix (List.prefix_append file more) hlength
  | later sections rest e hcomplete hsound hfile hfault =>
    cases hfault with
    | shortHeader hsome hfew => exact absurd rfl hheader
    | truncated tag length after htag hbytes hlen => exact absurd rfl (htruncated tag)
    | payload s after e hs hbytes hfaulty =>
      refine .later sections (rest ++ more) e hcomplete hsound ?_ (.payload s (after ++ more) e hs ?_ hfaulty)
      · rw [hfile, List.append_assoc]
      · rw [hbytes, List.append_assoc]

/-- **A refused file gets the error of its first fault, and keeps it.** The error is the one that the leftmost fault
leads to: a missing magic, or else, at the first section start where something is wrong, too few bytes for a header, a
length beyond the end, or a payload that cannot be decoded, in this order. An error of a file of twelve bytes or more
that is not the lack of bytes is the error of every longer file, too. -/
theorem first_fault_is_reported (file : List UInt8) (e : ParseError) :
    (parse file = .error e ↔ FirstFault file e) ∧
    (parse file = .error e → 12 ≤ file.length → e ≠ .insufficientHeaderBytes → (∀ tag, e ≠ .truncatedSection tag) →
      ∀ more, parse (file ++ more) = .error e) := by
  refine ⟨parse_eq_error_iff, fun h hlength hheader htruncated more => ?_⟩
  rw [parse_eq_error_iff] at h ⊢
  exact h.append hlength hheader htruncated more

/-- a number of three bytes behind an unknown section: a length that is too large comes later, and then more bytes -/
theorem first_fault_is_reported_wide_number :
    let unknown : Section := ⟨⟨0x58, 0x58, 0x58, 0x58⟩, [1, 2]⟩
    let wide : Section := ⟨Kind.pointSize.tag, [0, 16, 0]⟩
    let file := magic ++ unknown.encode ++ (wide.encode ++ (Kind.name.tag.bytes ++ Bytes.ofUInt32 9 ++ [0x41, 0]))
    FirstFault file (.invalidNumberLength 3) ∧ parse file = .error (.invalidNumberLength 3) ∧
      parse (file ++ [0x42, 0x43, 0, 0, 0, 0, 0, 7]) = .error (.invalidNumberLength 3) := by
  intro unknown wide file
  have hfault : FirstFault file (.invalidNumberLength 3) := by
    refine .later [unknown] _ _ (by decide) ?_ (by rw [List.flatMap_singleton]) (.payload wide _ _ (by decide) rfl ?_)
    · intro s hs k hk
      obtain rfl := List.mem_singleton.1 hs
      cases hk
    · exact ⟨.pointSize, rfl, by simp [Kind.Admits, wide], rfl⟩
  obtain ⟨hfirst, hkeeps⟩ := first_fault_is_reported file (.invalidNumberLength 3)
  have hparse : parse file = .error (.invalidNumberLength 3) := hfirst.2 hfault
  exact ⟨hfault, hparse, hkeeps hparse (by decide) (by simp) (by simp) _⟩

end GlyphImage.Pff2
