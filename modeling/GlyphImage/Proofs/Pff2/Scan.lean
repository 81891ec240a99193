/-
The loop over the sections of a file, one turn after another. `parse` cuts a file into sections first; here each turn
reads a header, looks for the payload, takes it in and goes on behind it. A slice whose lack is provided for leads to an
error, and any other would lead out of range. No turn does (`Cursor.turn_ne_outOfRange`): a turn is what stands at the
front of the bytes and what the draft makes of it (`Cursor.turn_eq`). So a turn that goes on takes off one section
(`Cursor.front_of_turn`), and the loop ends with the result of `parse` (`Cursor.run_eq`) after a turn for every eight
bytes at most (`Cursor.length_starts_le`).

Records are read once more with every number checked (`Glyph.readChecked?_eq`). `section_loop_ends` puts this together.
-/
import GlyphImage.Proofs.Coverage
import GlyphImage.Proofs.Pff2.Grammar

namespace GlyphImage.Pff2

/-! ## Turns -/

/-- the first bytes, if there are as many -/
def front? (bytes : List UInt8) (count : Nat) : Option (List UInt8) :=
  if count ≤ bytes.length then some (bytes.take count) else none

/-- what follows the first bytes, if there are as many -/
def behind? (bytes : List UInt8) (count : Nat) : Option (List UInt8) :=
  if count ≤ bytes.length then some (bytes.drop count) else none

/-- the name and the length of a section, and what follows its header -/
def header? : List UInt8 → Option (Tag × UInt32 × List UInt8)
  | t1 :: t2 :: t3 :: t4 :: l1 :: l2 :: l3 :: l4 :: after => some (⟨t1, t2, t3, t4⟩, Bytes.uint32 l1 l2 l3 l4, after)
  | _ => none

/-- where the loop stands -/
structure Cursor where
  /-- what the sections so far say -/
  draft : Draft
  /-- the bytes that are left -/
  rest : List UInt8
  deriving DecidableEq, Repr

/-- how a turn ends -/
inductive Turn where
  /-- there is another turn -/
  | again (next : Cursor)
  /-- the loop is left -/
  | done (result : Except ParseError Parsed)
  /-- a slice reaches behind the end of the bytes -/
  | outOfRange

/-- one turn of the loop -/
def Cursor.turn (file : Array UInt8) (c : Cursor) : Turn :=
  match header? c.rest with
  | none => .done (.error .insufficientHeaderBytes)
  | some (tag, length, after) =>
    match tag.kind? with
    | none =>
      match behind? after length.toNat with
      | none => .done (.error (.truncatedSection tag))
      | some rest => .again { c with rest }
    | some kind =>
      if kind = .glyphData then .done (finish file c.draft .glyphData)
      else
        match front? after length.toNat with
        | none => .done (.error (.truncatedSection tag))
        | some payload =>
          match c.draft.add ⟨tag, payload⟩ with
          | .error e => .done (.error e)
          | .ok draft =>
            -- nobody asks again whether there are as many bytes
            match behind? after length.toNat with
            | none => .outOfRange
            | some rest => .again ⟨draft, rest⟩

theorem header?_of_length_lt {bytes : List UInt8} (h : bytes.length < 8) : header? bytes = none := by
  unfold header?
  split
  · simp only [List.length_cons] at h
    omega
  · rfl

theorem header?_append (tag : Tag) (length : UInt32) (after : List UInt8) :
    header? (tag.bytes ++ Bytes.ofUInt32 length ++ after) = some (tag, length, after) := by
  obtain ⟨a, b, c, d, hbytes, hvalue⟩ := Bytes.exists_ofUInt32 length
  simp only [hbytes, Tag.bytes, List.cons_append, List.nil_append, header?, hvalue]

/-- an unknown section changes nothing -/
theorem Draft.add_of_unknown {tag : Tag} (h : tag.kind? = none) (d : Draft) (payload : List UInt8) :
    d.add ⟨tag, payload⟩ = .ok d := by
  simp only [add, h]

namespace Cursor

variable {file : Array UInt8} {c next : Cursor}

/-- **A turn is what stands at the front of the bytes**, and what the draft makes of it. -/
theorem turn_eq (file : Array UInt8) {c : Cursor} (h : c.rest ≠ []) :
    c.turn file =
      match Section.front c.rest with
      | .stop ending => .done (finish file c.draft ending)
      | .whole s rest =>
        match c.draft.add s with
        | .error e => .done (.error e)
        | .ok draft => .again ⟨draft, rest⟩ := by
  obtain ⟨draft, bytes⟩ := c
  rcases Nat.lt_or_ge bytes.length 8 with hshort | hlong
  · simp only [turn, header?_of_length_lt hshort, Section.front_of_length_lt hshort, if_neg h]
    rfl
  · obtain ⟨tag, length, after, rfl⟩ := Section.exists_header_of_le hlong
    simp only [turn, header?_append, Section.front_header]
    cases hkind : tag.kind? with
    | none =>
      have htag : tag ≠ Kind.glyphData.tag := fun heq => by
        rw [Tag.kind?_eq_some_iff.2 heq] at hkind
        cases hkind
      by_cases hlength : length.toNat ≤ after.length
      · simp only [behind?, if_pos hlength, if_neg htag, Draft.add_of_unknown hkind]
      · simp only [behind?, if_neg hlength, if_neg htag, finish]
    | some kind =>
      obtain rfl := Tag.kind?_eq_some_iff.1 hkind
      by_cases hdata : kind = .glyphData
      · simp only [hdata, if_true]
      · have htag : kind.tag ≠ Kind.glyphData.tag := fun heq => hdata (Kind.tag_injective heq)
        by_cases hlength : length.toNat ≤ after.length
        · -- the payload is there, and so is what follows it
          simp only [front?, behind?, if_pos hlength, if_neg hdata, if_neg htag]
        · simp only [front?, if_neg hlength, if_neg hdata, if_neg htag]
          rfl

/-- **No turn slices out of range**, whatever length a section declares. -/
theorem turn_ne_outOfRange (file : Array UInt8) (c : Cursor) : c.turn file ≠ .outOfRange := by
  by_cases hrest : c.rest = []
  · simp [turn, hrest, header?]
  · rw [turn_eq file hrest]
    split
    · simp
    · split <;> simp

/-- **A turn that goes on takes one section off the front**, handled or skipped. -/
theorem front_of_turn (h : c.turn file = .again next) :
    ∃ s, Section.front c.rest = .whole s next.rest ∧ c.draft.add s = .ok next.draft := by
  by_cases hrest : c.rest = []
  · simp [turn, hrest, header?] at h
  · rw [turn_eq file hrest] at h
    split at h
    · cases h
    · rename_i s rest hfront
      split at h
      · cases h
      · rename_i draft hadd
        obtain rfl := Turn.again.inj h
        exact ⟨s, hfront, hadd⟩

theorem length_of_turn (h : c.turn file = .again next) : next.rest.length + 8 ≤ c.rest.length := by
  obtain ⟨s, hfront, -⟩ := front_of_turn h
  have hlength := Section.length_of_front hfront
  rw [Section.size] at hlength
  omega

theorem suffix_of_turn (h : c.turn file = .again next) : next.rest <:+ c.rest := by
  obtain ⟨s, hfront, -⟩ := front_of_turn h
  obtain ⟨-, hbytes⟩ := Section.front_eq_whole hfront
  exact ⟨s.encode, hbytes.symm⟩

/-- the header in front of a turn that goes on: the bytes that it declares are there, and are passed over with it -/
theorem header_of_turn (h : c.turn file = .again next) :
    ∃ (tag : Tag) (length : UInt32) (after : List UInt8), c.rest = tag.bytes ++ Bytes.ofUInt32 length ++ after ∧
      length.toNat ≤ after.length ∧ next.rest = after.drop length.toNat := by
  obtain ⟨s, hfront, -⟩ := front_of_turn h
  obtain ⟨hcomplete, hbytes⟩ := Section.front_eq_whole hfront
  refine ⟨s.tag, UInt32.ofNat s.payload.length, s.payload ++ next.rest, ?_, ?_, ?_⟩
  · rw [hbytes, Section.encode, List.append_assoc]
  · rw [UInt32.toNat_ofNat_of_lt' hcomplete.2, List.length_append]
    exact Nat.le_add_right _ _
  · rw [UInt32.toNat_ofNat_of_lt' hcomplete.2, List.drop_left]

/-! ## Runs -/

/-- all turns from here on: where each of them starts, and the result unless a slice is out of range -/
def run (file : Array UInt8) (c : Cursor) : List Cursor × Option (Except ParseError Parsed) :=
  if c.rest = [] then ([], some (finish file c.draft .endOfFile))
  else
    match h : c.turn file with
    | .done result => ([c], some result)
    | .outOfRange => ([c], none)
    | .again next =>
      have : next.rest.length < c.rest.length := by have := length_of_turn h; omega
      let (later, result) := run file next
      (c :: later, result)
termination_by c.rest.length

/-- where the loop starts: behind the magic bytes, with nothing said so far -/
def start (file : List UInt8) : Cursor := ⟨{}, file.drop magic.length⟩

theorem run_of_empty (h : c.rest = []) : c.run file = ([], some (finish file c.draft .endOfFile)) := by
  rw [run, if_pos h]

theorem run_of_done {result : Except ParseError Parsed} (hrest : c.rest ≠ []) (h : c.turn file = .done result) :
    c.run file = ([c], some result) := by
  rw [run, if_neg hrest]
  split <;> simp_all

theorem run_of_again (hrest : c.rest ≠ []) (h : c.turn file = .again next) :
    c.run file = (c :: (next.run file).1, (next.run file).2) := by
  rw [run, if_neg hrest]
  split <;> simp_all

/-- **The loop ends with what cutting the bytes up leads to.** -/
theorem run_eq (file : Array UInt8) (c : Cursor) :
    (c.run file).2 =
      some ((c.draft.addAll (Section.split c.rest).1).bind fun d => finish file d (Section.split c.rest).2) := by
  -- a turn takes a section off, so the induction is on how many bytes are left
  induction hlength : c.rest.length using Nat.strong_induction_on generalizing c with
  | _ length ih =>
    subst hlength
    by_cases hrest : c.rest = []
    · rw [run_of_empty hrest, hrest, Section.split_of_stop rfl]
      rfl
    · have hturn := turn_eq file hrest
      cases hfront : Section.front c.rest with
      | stop ending =>
        rw [hfront] at hturn
        rw [run_of_done hrest hturn, Section.split_of_stop hfront]
        rfl
      | whole s rest =>
        rw [hfront] at hturn
        rw [Section.split_of_whole hfront]
        cases hadd : c.draft.add s with
        | error e =>
          simp only [hadd] at hturn
          rw [run_of_done hrest hturn]
          simp only [Draft.addAll, hadd]
          rfl
        | ok draft =>
          simp only [hadd] at hturn
          have hshorter := length_of_turn hturn
          rw [run_of_again hrest hturn, ih _ (by omega) _ rfl]
          simp only [Draft.addAll, hadd]

/-- the loop over a file ends with the result of reading it -/
theorem run_start {file : List UInt8} (hmagic : magic <+: file) :
    ((start file).run file.toArray).2 = some (parse file) := by
  rw [run_eq, parse, if_pos (List.isPrefixOf_iff_prefix.2 hmagic), start]
  cases Section.split (file.drop magic.length) with
  | mk sections ending => cases hadd : Draft.addAll {} sections <;> simp only [hadd] <;> rfl

/-- **There is a turn for every eight bytes at most**, also if no section has a payload. -/
theorem length_starts_le (file : Array UInt8) (c : Cursor) : 8 * (c.run file).1.length ≤ c.rest.length + 7 := by
  fun_induction run file c with
  | case1 c hrest => simp
  | case2 c hrest result hturn | case3 c hrest hturn =>
    have hsome := List.length_pos_iff.2 hrest
    simp only [List.length_singleton]
    omega
  | case4 c hrest next hturn _ later result hrun ih =>
    have hshorter := length_of_turn hturn
    rw [hrun] at ih
    simp only [List.length_cons] at ih ⊢
    omega

/-- a turn starts with bytes that are left of those at the beginning -/
theorem suffix_of_mem_run {file : Array UInt8} {c c' : Cursor} (h : c' ∈ (c.run file).1) :
    c'.rest <:+ c.rest ∧ c'.rest ≠ [] := by
  fun_induction run file c with
  | case1 c hrest => cases h
  | case2 c hrest result hturn | case3 c hrest hturn =>
    obtain rfl := List.mem_singleton.1 h
    exact ⟨List.suffix_refl _, hrest⟩
  | case4 c hrest next hturn _ later result hrun ih =>
    rw [hrun] at ih
    rcases List.mem_cons.1 h with rfl | hlater
    · exact ⟨List.suffix_refl _, hrest⟩
    · obtain ⟨hsuffix, hsome⟩ := ih hlater
      exact ⟨hsuffix.trans (suffix_of_turn hturn), hsome⟩

theorem mem_run_self (hrest : c.rest ≠ []) : c ∈ (c.run file).1 := by
  rw [run, if_neg hrest]
  split <;> exact List.mem_cons_self

/-- what a turn goes on to is the start of another turn, as long as bytes are left -/
theorem mem_run_of_turn {c' : Cursor} (h : c' ∈ (c.run file).1) (hturn : c'.turn file = .again next)
    (hrest : next.rest ≠ []) : next ∈ (c.run file).1 := by
  fun_induction run file c with
  | case1 c hempty => cases h
  | case2 c hsome result hdone =>
    rw [List.mem_singleton.1 h] at hturn
    cases hdone.symm.trans hturn
  | case3 c hsome hout =>
    rw [List.mem_singleton.1 h] at hturn
    cases hout.symm.trans hturn
  | case4 c hsome next' hturn' _ later result hrun ih =>
    rw [hrun] at ih
    rcases List.mem_cons.1 h with rfl | hlater
    · obtain rfl := Turn.again.inj (hturn'.symm.trans hturn)
      have hself : next' ∈ (next'.run file).1 := mem_run_self hrest
      rw [hrun] at hself
      exact List.mem_cons_of_mem _ hself
    · exact List.mem_cons_of_mem _ (ih hlater)

end Cursor

/-! ## Records -/

namespace Glyph

/-- the bytes that hold the bits of a bitmap, every step checked: missing if a number is no 64 bit size -/
def byteCount? (width height : Nat) : Option Nat := do
  let area ← size? (width * height)
  let padded ← size? (area + 7)
  some (padded / 8)

/-- reads the record at `offset` of the file, every step checked: the outer answer is missing if a number is no 64 bit
size, the inner one if the record does not lie inside the file -/
def readChecked? (file : Array UInt8) (code : UInt32) (offset : Nat) : Option (Option Glyph) := do
  let start ← size? (offset + headerSize)
  match (file.extract offset start).toList with
  | [w1, w2, h1, h2, x1, x2, y1, y2, d1, d2] =>
    let width := Bytes.uint16 w1 w2
    let height := Bytes.uint16 h1 h2
    let count ← byteCount? width.toNat height.toNat
    let stop ← size? (start + count)
    let bitmap := file.extract start stop
    if bitmap.size = count then
      some (some ⟨code, width, height, Bytes.int16 x1 x2, Bytes.int16 y1 y2, Bytes.int16 d1 d2, bitmap⟩)
    else some none
  | _ => some none

theorem area_lt (width height : UInt16) : width.toNat * height.toNat < 2 ^ 32 :=
  calc width.toNat * height.toNat < 2 ^ 16 * 2 ^ 16 := Nat.mul_lt_mul'' width.toNat_lt height.toNat_lt
    _ = 2 ^ 32 := rfl

/-- **The bytes of a bitmap can be counted**, whatever its header says. -/
theorem byteCount?_eq (width height : UInt16) :
    byteCount? width.toNat height.toNat = some (byteCount width.toNat height.toNat) := by
  have harea := area_lt width height
  have hfits : size? (width.toNat * height.toNat) = some (width.toNat * height.toNat) :=
    size?_of_lt (by unfold sizeLimit UInt64.size; omega)
  have hpadded : size? (width.toNat * height.toNat + 7) = some (width.toNat * height.toNat + 7) :=
    size?_of_lt (by unfold sizeLimit UInt64.size; omega)
  simp [byteCount?, hfits, hpadded, byteCount]

/-- **A record is read without a number that is too large**, wherever an index says it is. -/
theorem readChecked?_eq (file : Array UInt8) (code offset : UInt32) :
    readChecked? file code offset.toNat = some (read? file code offset.toNat) := by
  have hoffset := offset.toNat_lt
  have hstart : size? (offset.toNat + headerSize) = some (offset.toNat + headerSize) :=
    size?_of_lt (by unfold sizeLimit UInt64.size headerSize; omega)
  simp only [readChecked?, hstart, Option.bind_eq_bind, Option.bind_some]
  split
  · rename_i w1 w2 h1 h2 x1 x2 y1 y2 d1 d2 hheader
    have harea := area_lt (Bytes.uint16 w1 w2) (Bytes.uint16 h1 h2)
    have hstop : size? (offset.toNat + headerSize +
          byteCount (Bytes.uint16 w1 w2).toNat (Bytes.uint16 h1 h2).toNat) =
        some (offset.toNat + headerSize + byteCount (Bytes.uint16 w1 w2).toNat (Bytes.uint16 h1 h2).toNat) :=
      size?_of_lt (by unfold sizeLimit UInt64.size headerSize byteCount; omega)
    simp only [read?, hheader, byteCount?_eq, hstop, Option.bind_some]
    split_ifs <;> rfl
  · rename_i hother
    have hnone : read? file code offset.toNat = none := by
      unfold read?
      split
      · rename_i hheader
        exact absurd hheader (hother _ _ _ _ _ _ _ _ _ _)
      · rfl
    rw [hnone]

end Glyph

/-! ## Files -/

/-- **The loop over the sections ends, and nothing in it slices out of range.** For a file that starts with the magic
bytes it ends with the result of reading the file, after at most as many turns as it takes to use up the bytes behind the
magic eight by eight. Each turn starts with the end of the file, which is not empty; and if it goes on, the bytes that the
section declares are there, and eight more than these are used up. A turn never slices out of range, whatever is left of
the bytes and whatever the sections said. The bytes of a bitmap can be counted in 64 bits, and so can the places of a
record: read with every number checked, it is read alike. -/
theorem section_loop_ends (file : List UInt8) (hmagic : magic <+: file) :
    ∃ starts, (Cursor.start file).run file.toArray = (starts, some (parse file)) ∧
      starts.length ≤ (file.length - 12 + 7) / 8 ∧
      ((Cursor.start file).rest = [] ∨ Cursor.start file ∈ starts) ∧
      (∀ c ∈ starts, c.rest <:+ file ∧ c.rest ≠ [] ∧
        ∀ next, c.turn file.toArray = .again next → (next.rest = [] ∨ next ∈ starts) ∧
          ∃ (tag : Tag) (length : UInt32) (after : List UInt8), c.rest = tag.bytes ++ Bytes.ofUInt32 length ++ after ∧
            length.toNat ≤ after.length ∧ next.rest = after.drop length.toNat ∧
            c.rest.length = next.rest.length + (8 + length.toNat)) ∧
      (∀ c : Cursor, c.turn file.toArray ≠ .outOfRange) ∧
      (∀ width height : UInt16, Glyph.byteCount? width.toNat height.toNat =
        some (Glyph.byteCount width.toNat height.toNat)) ∧
      ∀ code offset : UInt32, Glyph.readChecked? file.toArray code offset.toNat =
        some (Glyph.read? file.toArray code offset.toNat) := by
  refine ⟨((Cursor.start file).run file.toArray).1, Prod.ext rfl (Cursor.run_start hmagic), ?_, ?_, fun c hc => ?_,
    Cursor.turn_ne_outOfRange file.toArray, Glyph.byteCount?_eq, Glyph.readChecked?_eq file.toArray⟩
  · have hturns := Cursor.length_starts_le file.toArray (Cursor.start file)
    have hbytes : (Cursor.start file).rest.length = file.length - 12 := List.length_drop
    omega
  · exact Classical.or_iff_not_imp_left.2 Cursor.mem_run_self
  · obtain ⟨hsuffix, hsome⟩ := Cursor.suffix_of_mem_run hc
    refine ⟨hsuffix.trans (List.drop_suffix _ _), hsome, fun next hturn => ⟨?_, ?_⟩⟩
    · exact Classical.or_iff_not_imp_left.2 (Cursor.mem_run_of_turn hc hturn)
    · obtain ⟨tag, length, after, hbytes, hlength, hnext⟩ := Cursor.header_of_turn hturn
      refine ⟨tag, length, after, hbytes, hlength, hnext, ?_⟩
      rw [hbytes, hnext]
      simp only [Tag.bytes, List.length_append, List.length_cons, List.length_nil, Bytes.length_ofUInt32,
        List.length_drop]
      omega

/-- two sections without a payload, and three bytes that are too few for a header: there are as many turns as there can
be -/
theorem section_loop_ends_empty_sections :
    let file := magic ++ [0x58, 0x58, 0x58, 0x58, 0, 0, 0, 0] ++ [0x59, 0x59, 0x59, 0x59, 0, 0, 0, 0] ++ [1, 2, 3]
    magic <+: file ∧ ∃ starts, (Cursor.start file).run file.toArray = (starts, some (.error .insufficientHeaderBytes)) ∧
      starts.length ≤ (file.length - 12 + 7) / 8 ∧ starts.length = 3 ∧ (file.length - 12 + 7) / 8 = 3 := by
  intro file
  have hmagic : magic <+: file := by decide
  obtain ⟨starts, hrun, hturns, -⟩ := section_loop_ends file hmagic
  have hparse : parse file = .error .insufficientHeaderBytes := by cbv
  have hcount : ((Cursor.start file).run file.toArray).1.length = 3 := by cbv
  rw [hparse] at hrun
  rw [hrun] at hcount
  exact ⟨hmagic, starts, hrun, hturns, hcount, by decide⟩

end GlyphImage.Pff2
