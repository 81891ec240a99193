/-
Cutting a file into sections and writing sections one after another are each other's inverse. `front` takes off exactly
what `encode` put in front (`front_encode`, `front_eq_whole`), and so `split` finds the sections of every byte string that
is written as complete sections and something that is none (`split_append`); every byte string is (`exists_sections`).
What eight bytes say as a header is told once, by `front_header`. For layouts: a file has at most one
(`Layout.Describes.unique`), and the one it has is found (`Layout.Describes.split_eq`).
-/
import GlyphImage.Pff2.Layout

namespace GlyphImage.Pff2

/-! ## One section -/

namespace Section

@[simp] theorem length_encode (s : Section) : s.encode.length = s.size := by
  simp only [encode, Tag.bytes, size, List.length_append, List.length_cons, List.length_nil, Bytes.length_ofUInt32]

/-- eight bytes or more start with a header -/
theorem exists_header_of_le {bytes : List UInt8} (h : 8 ≤ bytes.length) :
    ∃ (tag : Tag) (length : UInt32) (rest : List UInt8), bytes = tag.bytes ++ Bytes.ofUInt32 length ++ rest := by
  have htake : (bytes.take 8).length = 8 := List.length_take_of_le h
  obtain ⟨t1, t2, t3, t4, l1, l2, l3, l4, heq⟩ : ∃ t1 t2 t3 t4 l1 l2 l3 l4,
      bytes.take 8 = [t1, t2, t3, t4, l1, l2, l3, l4] := by
    match bytes.take 8, htake with
    | [t1, t2, t3, t4, l1, l2, l3, l4], _ => exact ⟨t1, t2, t3, t4, l1, l2, l3, l4, rfl⟩
  refine ⟨⟨t1, t2, t3, t4⟩, Bytes.uint32 l1 l2 l3 l4, bytes.drop 8, ?_⟩
  rw [Bytes.ofUInt32_uint32]
  calc bytes = bytes.take 8 ++ bytes.drop 8 := (List.take_append_drop 8 bytes).symm
    _ = [t1, t2, t3, t4, l1, l2, l3, l4] ++ bytes.drop 8 := by rw [heq]

/-- what a header says about the bytes behind it -/
theorem front_header (tag : Tag) (length : UInt32) (rest : List UInt8) :
    front (tag.bytes ++ Bytes.ofUInt32 length ++ rest) =
      if tag = Kind.glyphData.tag then .stop .glyphData
      else if length.toNat ≤ rest.length then .whole ⟨tag, rest.take length.toNat⟩ (rest.drop length.toNat)
      else .stop (.truncated tag) := by
  obtain ⟨a, b, c, d, hbytes, hvalue⟩ := Bytes.exists_ofUInt32 length
  simp only [hbytes, Tag.bytes, List.cons_append, List.nil_append, front, hvalue]

/-- fewer bytes than a header takes start nothing -/
theorem front_of_length_lt {bytes : List UInt8} (h : bytes.length < 8) :
    front bytes = .stop (if bytes = [] then .endOfFile else .shortHeader) := by
  unfold front
  split
  · rfl
  · simp only [List.length_cons] at h
    omega
  · rename_i hempty _
    rw [if_neg hempty]

theorem front_encode {s : Section} (hs : s.Complete) (rest : List UInt8) : front (s.encode ++ rest) = .whole s rest := by
  rw [encode, List.append_assoc, front_header, if_neg hs.1, UInt32.toNat_ofNat_of_lt' hs.2, if_pos (by simp), List.take_left,
    List.drop_left]

theorem front_eq_whole {bytes rest : List UInt8} {s : Section} (h : front bytes = .whole s rest) :
    s.Complete ∧ bytes = s.encode ++ rest := by
  rcases Nat.lt_or_ge bytes.length 8 with hshort | hlong
  · rw [front_of_length_lt hshort] at h
    cases h
  · obtain ⟨tag, length, later, rfl⟩ := exists_header_of_le hlong
    rw [front_header] at h
    split at h
    · cases h
    · rename_i htag
      split at h
      · rename_i hlength
        obtain ⟨rfl, rfl⟩ := Front.whole.inj h
        have htake : (later.take length.toNat).length = length.toNat := List.length_take_of_le hlength
        refine ⟨⟨htag, by rw [htake]; exact length.toNat_lt⟩, ?_⟩
        simp only [encode, htake, UInt32.ofNat_toNat, List.append_assoc, List.take_append_drop]
      · cases h

/-! ## All sections -/

theorem split_of_stop {bytes : List UInt8} {ending : Ending} (h : front bytes = .stop ending) :
    split bytes = ([], ending) := by
  rw [split]
  split
  · rename_i e he; rw [h] at he; cases he; rfl
  · rename_i s rest hs; rw [h] at hs; cases hs

theorem split_of_whole {bytes rest : List UInt8} {s : Section} (h : front bytes = .whole s rest) :
    split bytes = (s :: (split rest).1, (split rest).2) := by
  rw [split]
  split
  · rename_i e he; rw [h] at he; cases he
  · rename_i s' rest' hs; rw [h] at hs; cases hs; rfl

theorem split_append {sections : List Section} {rest : List UInt8} {ending : Ending}
    (hs : ∀ s ∈ sections, s.Complete) (h : front rest = .stop ending) :
    split (sections.flatMap encode ++ rest) = (sections, ending) := by
  induction sections with
  | nil => exact split_of_stop h
  | cons s sections ih =>
    rw [List.flatMap_cons, List.append_assoc, split_of_whole (front_encode (hs s List.mem_cons_self) _),
      ih fun s' hs' => hs s' (List.mem_cons_of_mem s hs')]

theorem exists_rest_of_split {bytes : List UInt8} {sections : List Section} {ending : Ending}
    (h : split bytes = (sections, ending)) :
    ∃ rest, bytes = sections.flatMap encode ++ rest ∧ (∀ s ∈ sections, s.Complete) ∧ front rest = .stop ending := by
  induction sections generalizing bytes with
  | nil =>
    cases hf : front bytes with
    | stop e =>
      rw [split_of_stop hf] at h
      cases h
      exact ⟨bytes, rfl, by simp, hf⟩
    | whole s rest => rw [split_of_whole hf] at h; cases h
  | cons s sections ih =>
    cases hf : front bytes with
    | stop e => rw [split_of_stop hf] at h; cases h
    | whole s' rest =>
      rw [split_of_whole hf] at h
      simp only [Prod.mk.injEq, List.cons.injEq] at h
      obtain ⟨⟨rfl, hsections⟩, hending⟩ := h
      obtain ⟨hs, rfl⟩ := front_eq_whole hf
      obtain ⟨later, rfl, hlater, hstop⟩ := ih (Prod.ext hsections hending)
      refine ⟨later, by simp, ?_, hstop⟩
      intro s' hs'
      rcases List.mem_cons.1 hs' with rfl | hs'
      · exact hs
      · exact hlater s' hs'

/-- every byte string starts with complete sections, up to bytes that start none -/
theorem exists_sections (bytes : List UInt8) :
    ∃ (sections : List Section) (rest : List UInt8) (ending : Ending), bytes = sections.flatMap encode ++ rest ∧
      (∀ s ∈ sections, s.Complete) ∧ front rest = .stop ending := by
  have hsplit : split bytes = ((split bytes).1, (split bytes).2) := rfl
  obtain ⟨rest, hbytes, hcomplete, hfront⟩ := exists_rest_of_split hsplit
  exact ⟨_, rest, _, hbytes, hcomplete, hfront⟩

end Section

/-! ## Layouts -/

namespace Tail

theorem front_bytes (t : Tail) : Section.front t.bytes = .stop t.ending := by
  cases t with
  | endOfFile => rfl
  | glyphData length rest => exact Section.front_header Kind.glyphData.tag length rest

theorem exists_of_front {bytes : List UInt8} {ending : Ending} (h : Section.front bytes = .stop ending)
    (hending : ending = .endOfFile ∨ ending = .glyphData) : ∃ t : Tail, t.bytes = bytes := by
  rcases Nat.lt_or_ge bytes.length 8 with hshort | hlong
  · rw [Section.front_of_length_lt hshort] at h
    split at h
    · rename_i hempty
      exact ⟨.endOfFile, hempty.symm⟩
    · cases h
      rcases hending with h | h <;> cases h
  · obtain ⟨tag, length, later, rfl⟩ := Section.exists_header_of_le hlong
    rw [Section.front_header] at h
    split at h
    · rename_i htag
      exact ⟨.glyphData length later, by rw [bytes, htag]⟩
    · split at h <;> cases h
      rcases hending with h | h <;> cases h

theorem bytes_injective {t t' : Tail} (h : t.bytes = t'.bytes) : t = t' := by
  cases t with
  | endOfFile =>
    cases t' with
    | endOfFile => rfl
    | glyphData length rest => cases h
  | glyphData length rest =>
    cases t' with
    | endOfFile => cases h
    | glyphData length' rest' =>
      have hlen : (Kind.glyphData.tag.bytes ++ Bytes.ofUInt32 length).length =
          (Kind.glyphData.tag.bytes ++ Bytes.ofUInt32 length').length := rfl
      obtain ⟨hhead, rfl⟩ := List.append_inj h hlen
      obtain ⟨-, hlength⟩ := List.append_inj hhead rfl
      rw [Bytes.ofUInt32_injective hlength]

end Tail

namespace Layout

theorem drop_magic (l : Layout) : l.bytes.drop magic.length = l.sections.flatMap Section.encode ++ l.tail.bytes := by
  rw [bytes, List.append_assoc, List.drop_left]

/-- the layout of a file is what cutting it up finds -/
theorem Describes.split_eq {l : Layout} {file : List UInt8} (h : l.Describes file) :
    Section.split (file.drop magic.length) = (l.sections, l.tail.ending) := by
  rw [h.1, drop_magic]
  exact Section.split_append h.2 l.tail.front_bytes

/-- **A file has at most one layout.** -/
theorem Describes.unique {l l' : Layout} {file : List UInt8} (h : l.Describes file) (h' : l'.Describes file) :
    l = l' := by
  have hsplit := h.split_eq.symm.trans h'.split_eq
  have hsections : l.sections = l'.sections := congrArg Prod.fst hsplit
  have hbytes : l.bytes = l'.bytes := h.1.symm.trans h'.1
  rw [bytes, bytes, hsections] at hbytes
  have htail : l.tail = l'.tail := Tail.bytes_injective (List.append_cancel_left hbytes)
  cases l
  cases l'
  simp only at hsections htail
  rw [hsections, htail]

end Layout

end GlyphImage.Pff2
