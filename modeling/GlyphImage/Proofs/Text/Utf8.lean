/-
Decoding and encoding UTF-8 are each other's inverse. `decode` accepts exactly the byte strings that `encode` produces
(`decode_eq_ok_iff`), so "the bytes of a text" is the same as "valid UTF-8"; these bytes are the ones that the standard
library stores for the text (`encode_eq_toByteArray`), and no other text has them (`encode_injective`). Everything rests
on single sequences: `front` recognises the bytes of a character whatever follows them (`front_encodeChar`), and what it
takes for a character are that character's bytes (`eq_encodeChar_of_front`).
-/
import GlyphImage.Text.Utf8
import Mathlib

namespace GlyphImage.Utf8

/-! ## Single bytes -/

theorem isTail_iff (b : UInt8) : isTail b = true ↔ 0x80 ≤ b.toNat ∧ b.toNat ≤ 0xBF := by
  simp [isTail, UInt8.le_iff_toNat_le]

theorem isSecondOfThree_iff (first second : UInt8) :
    isSecondOfThree first second = true ↔ isTail second = true ∧ (first.toNat = 0xE0 → 0xA0 ≤ second.toNat) ∧
      (first.toNat = 0xED → second.toNat ≤ 0x9F) := by
  have h0 : first = 0xE0 ↔ first.toNat = 0xE0 := UInt8.toNat_inj.symm
  have hd : first = 0xED ↔ first.toNat = 0xED := UInt8.toNat_inj.symm
  rw [isTail_iff]
  unfold isSecondOfThree
  simp only [h0, hd]
  split_ifs with h1 h2
  · simp [UInt8.le_iff_toNat_le]; omega
  · simp [UInt8.le_iff_toNat_le]; omega
  · rw [isTail_iff]; omega

theorem isSecondOfFour_iff (first second : UInt8) :
    isSecondOfFour first second = true ↔ isTail second = true ∧ (first.toNat = 0xF0 → 0x90 ≤ second.toNat) ∧
      (first.toNat = 0xF4 → second.toNat ≤ 0x8F) := by
  have h0 : first = 0xF0 ↔ first.toNat = 0xF0 := UInt8.toNat_inj.symm
  have h4 : first = 0xF4 ↔ first.toNat = 0xF4 := UInt8.toNat_inj.symm
  rw [isTail_iff]
  unfold isSecondOfFour
  simp only [h0, h4]
  split_ifs with h1 h2
  · simp [UInt8.le_iff_toNat_le]; omega
  · simp [UInt8.le_iff_toNat_le]; omega
  · rw [isTail_iff]; omega

/-- the continuation byte with these payload bits -/
theorem isTail_byte {n : Nat} (h : n < 64) : isTail (UInt8.ofNat (0x80 + n)) = true := by
  rw [isTail_iff, UInt8.toNat_ofNat']
  omega

theorem tailBits_byte {n : Nat} (h : n < 64) : tailBits (UInt8.ofNat (0x80 + n)) = n := by
  unfold tailBits
  rw [UInt8.toNat_ofNat']
  omega

theorem toNat_eq_tailBits {b : UInt8} (h : isTail b = true) : b.toNat = 0x80 + tailBits b ∧ tailBits b < 64 := by
  rw [isTail_iff] at h
  unfold tailBits
  omega

/-! ## One sequence -/

/-- the first byte decides how long the sequence is -/
theorem front_eq (first : UInt8) (rest : List UInt8) :
    front first rest =
      if first.toNat < 0x80 then .char (Char.ofNat first.toNat) 1
      else if first.toNat < 0xC2 then .broken 1
      else if first.toNat < 0xE0 then frontTwo first rest
      else if first.toNat < 0xF0 then frontThree first rest
      else if first.toNat < 0xF5 then frontFour first rest
      else .broken 1 := by
  simp only [front, UInt8.lt_iff_toNat_lt]
  rfl

theorem frontTwo_eq {first b : UInt8} {rest : List UInt8} {c : Char} (hb : isTail b = true)
    (hc : (first.toNat - 0xC0) * 64 + tailBits b = c.toNat) : frontTwo first (b :: rest) = .char c 2 := by
  simp only [frontTwo, hb, if_true, hc, Char.ofNat_toNat]

theorem frontThree_eq {first b d : UInt8} {rest : List UInt8} {c : Char} (hb : isSecondOfThree first b = true)
    (hd : isTail d = true) (hc : ((first.toNat - 0xE0) * 64 + tailBits b) * 64 + tailBits d = c.toNat) :
    frontThree first (b :: d :: rest) = .char c 3 := by
  simp only [frontThree, hb, hd, if_true, hc, Char.ofNat_toNat]

theorem frontFour_eq {first b d e : UInt8} {rest : List UInt8} {c : Char} (hb : isSecondOfFour first b = true)
    (hd : isTail d = true) (he : isTail e = true)
    (hc : (((first.toNat - 0xF0) * 64 + tailBits b) * 64 + tailBits d) * 64 + tailBits e = c.toNat) :
    frontFour first (b :: d :: e :: rest) = .char c 4 := by
  simp only [frontFour, hb, hd, he, if_true, hc, Char.ofNat_toNat]

/-- **The bytes of a character are recognised**, whatever stands behind them. -/
theorem front_encodeChar (c : Char) (rest : List UInt8) :
    ∃ first tail, encodeChar c = first :: tail ∧ front first (tail ++ rest) = .char c (tail.length + 1) := by
  have hvalid : c.toNat < 0xD800 ∨ 0xDFFF < c.toNat ∧ c.toNat < 0x110000 := c.valid
  unfold encodeChar
  simp only
  split_ifs with h1 h2 h3
  · refine ⟨_, _, rfl, ?_⟩
    rw [front_eq, UInt8.toNat_ofNat', Nat.mod_eq_of_lt (by omega), if_pos h1, Char.ofNat_toNat]
    rfl
  · refine ⟨_, _, rfl, ?_⟩
    rw [front_eq, UInt8.toNat_ofNat', if_neg (by omega), if_neg (by omega), if_pos (by omega)]
    refine frontTwo_eq (isTail_byte (by omega)) ?_
    rw [UInt8.toNat_ofNat', tailBits_byte (by omega)]
    omega
  · refine ⟨_, _, rfl, ?_⟩
    rw [front_eq, UInt8.toNat_ofNat', if_neg (by omega), if_neg (by omega), if_neg (by omega), if_pos (by omega)]
    refine frontThree_eq ?_ (isTail_byte (by omega)) ?_
    · rw [isSecondOfThree_iff, isTail_byte (by omega), UInt8.toNat_ofNat', UInt8.toNat_ofNat']
      exact ⟨rfl, by omega, by omega⟩
    · rw [UInt8.toNat_ofNat', tailBits_byte (by omega), tailBits_byte (by omega)]
      omega
  · refine ⟨_, _, rfl, ?_⟩
    rw [front_eq, UInt8.toNat_ofNat', if_neg (by omega), if_neg (by omega), if_neg (by omega), if_neg (by omega),
      if_pos (by omega)]
    refine frontFour_eq ?_ (isTail_byte (by omega)) (isTail_byte (by omega)) ?_
    · rw [isSecondOfFour_iff, isTail_byte (by omega), UInt8.toNat_ofNat', UInt8.toNat_ofNat']
      exact ⟨rfl, by omega, by omega⟩
    · rw [UInt8.toNat_ofNat', tailBits_byte (by omega), tailBits_byte (by omega), tailBits_byte (by omega)]
      omega

theorem frontTwo_char {first : UInt8} {rest : List UInt8} {c : Char} {k : Nat} (h : frontTwo first rest = .char c k) :
    ∃ b later, rest = b :: later ∧ isTail b = true ∧ c = Char.ofNat ((first.toNat - 0xC0) * 64 + tailBits b) ∧
      k = 2 := by
  cases rest with
  | nil => cases h
  | cons b later =>
    simp only [frontTwo] at h
    split_ifs at h with hb
    obtain ⟨rfl, rfl⟩ := Front.char.inj h
    exact ⟨b, later, rfl, hb, rfl, rfl⟩

theorem frontThree_char {first : UInt8} {rest : List UInt8} {c : Char} {k : Nat}
    (h : frontThree first rest = .char c k) :
    ∃ b d later, rest = b :: d :: later ∧ isSecondOfThree first b = true ∧ isTail d = true ∧
      c = Char.ofNat (((first.toNat - 0xE0) * 64 + tailBits b) * 64 + tailBits d) ∧ k = 3 := by
  rcases rest with _ | ⟨b, _ | ⟨d, later⟩⟩
  · cases h
  · simp only [frontThree] at h
    split_ifs at h
  · simp only [frontThree] at h
    split_ifs at h with hb hd
    obtain ⟨rfl, rfl⟩ := Front.char.inj h
    exact ⟨b, d, later, rfl, hb, hd, rfl, rfl⟩

theorem frontFour_char {first : UInt8} {rest : List UInt8} {c : Char} {k : Nat}
    (h : frontFour first rest = .char c k) :
    ∃ b d e later, rest = b :: d :: e :: later ∧ isSecondOfFour first b = true ∧ isTail d = true ∧
      isTail e = true ∧
      c = Char.ofNat ((((first.toNat - 0xF0) * 64 + tailBits b) * 64 + tailBits d) * 64 + tailBits e) ∧ k = 4 := by
  rcases rest with _ | ⟨b, _ | ⟨d, _ | ⟨e, later⟩⟩⟩
  · cases h
  · simp only [frontFour] at h
    split_ifs at h
  · simp only [frontFour] at h
    split_ifs at h
  · simp only [frontFour] at h
    split_ifs at h with hb hd he
    obtain ⟨rfl, rfl⟩ := Front.char.inj h
    exact ⟨b, d, e, later, rfl, hb, hd, he, rfl, rfl⟩

theorem ofNat_eq_of_eq_toNat {b : UInt8} {n : Nat} (h : n = b.toNat) : UInt8.ofNat n = b := by
  rw [h]
  exact UInt8.ofNat_toNat

/-- **Nothing else is taken for a character**: what is recognised are the bytes of the character. -/
theorem eq_encodeChar_of_front {first : UInt8} {rest : List UInt8} {c : Char} {k : Nat}
    (h : front first rest = .char c k) : 0 < k ∧ first :: rest = encodeChar c ++ rest.drop (k - 1) := by
  have hlt := first.toNat_lt
  rw [front_eq] at h
  split_ifs at h with h1 h2 h3 h4 h5
  · obtain ⟨hc, rfl⟩ := Front.char.inj h
    have hc : c.toNat = first.toNat := by
      rw [← hc, Char.toNat_ofNat, if_pos (by left; omega)]
    refine ⟨by omega, ?_⟩
    simp only [encodeChar, hc, if_pos h1]
    rw [UInt8.ofNat_toNat]
    rfl
  · obtain ⟨b, later, rfl, hb, hc, rfl⟩ := frontTwo_char h
    obtain ⟨htb, hltb⟩ := toNat_eq_tailBits hb
    have hc : c.toNat = (first.toNat - 0xC0) * 64 + tailBits b := by
      rw [hc, Char.toNat_ofNat, if_pos (by left; omega)]
    refine ⟨by omega, ?_⟩
    unfold encodeChar
    simp only
    rw [if_neg (by omega), if_pos (by omega), ofNat_eq_of_eq_toNat (b := first) (by omega),
      ofNat_eq_of_eq_toNat (b := b) (by omega)]
    rfl
  · obtain ⟨b, d, later, rfl, hb, hd, hc, rfl⟩ := frontThree_char h
    obtain ⟨htb, hE0, hED⟩ := (isSecondOfThree_iff _ _).1 hb
    obtain ⟨hvb, hltb⟩ := toNat_eq_tailBits htb
    obtain ⟨hvd, hltd⟩ := toNat_eq_tailBits hd
    have hc : c.toNat = ((first.toNat - 0xE0) * 64 + tailBits b) * 64 + tailBits d := by
      rw [hc, Char.toNat_ofNat, if_pos (by unfold Nat.isValidChar; omega)]
    refine ⟨by omega, ?_⟩
    unfold encodeChar
    simp only
    rw [if_neg (by omega), if_neg (by omega), if_pos (by omega), ofNat_eq_of_eq_toNat (b := first) (by omega),
      ofNat_eq_of_eq_toNat (b := b) (by omega), ofNat_eq_of_eq_toNat (b := d) (by omega)]
    rfl
  · obtain ⟨b, d, e, later, rfl, hb, hd, he, hc, rfl⟩ := frontFour_char h
    obtain ⟨htb, hF0, hF4⟩ := (isSecondOfFour_iff _ _).1 hb
    obtain ⟨hvb, hltb⟩ := toNat_eq_tailBits htb
    obtain ⟨hvd, hltd⟩ := toNat_eq_tailBits hd
    obtain ⟨hve, hlte⟩ := toNat_eq_tailBits he
    have hc : c.toNat = (((first.toNat - 0xF0) * 64 + tailBits b) * 64 + tailBits d) * 64 + tailBits e := by
      rw [hc, Char.toNat_ofNat, if_pos (by unfold Nat.isValidChar; omega)]
    refine ⟨by omega, ?_⟩
    unfold encodeChar
    simp only
    rw [if_neg (by omega), if_neg (by omega), if_neg (by omega), ofNat_eq_of_eq_toNat (b := first) (by omega),
      ofNat_eq_of_eq_toNat (b := b) (by omega), ofNat_eq_of_eq_toNat (b := d) (by omega),
      ofNat_eq_of_eq_toNat (b := e) (by omega)]
    rfl

/-! ## Whole strings -/

theorem decodeFrom_encodeChar (start : Nat) (c : Char) (rest : List UInt8) :
    decodeFrom start (encodeChar c ++ rest) = (decodeFrom (start + (encodeChar c).length) rest).map (c :: ·) := by
  obtain ⟨first, tail, hc, hfront⟩ := front_encodeChar c rest
  rw [hc, List.cons_append, decodeFrom, hfront]
  simp

theorem decodeFrom_encode (start : Nat) (cs : List Char) : decodeFrom start (cs.flatMap encodeChar) = .ok cs := by
  induction cs generalizing start with
  | nil => rw [List.flatMap_nil, decodeFrom]
  | cons c cs ih => rw [List.flatMap_cons, decodeFrom_encodeChar, ih]; rfl

theorem eq_encode_of_decodeFrom {start : Nat} {bytes : List UInt8} {cs : List Char}
    (h : decodeFrom start bytes = .ok cs) : bytes = cs.flatMap encodeChar := by
  -- along the recursion of the decoder: it goes on only behind a whole character
  induction start, bytes using decodeFrom.induct generalizing cs with
  | case1 start => rw [decodeFrom] at h; cases h; rfl
  | case2 start first rest c k hfront ih =>
    rw [decodeFrom, hfront] at h
    obtain ⟨later, hlater, rfl⟩ : ∃ later, decodeFrom (start + k) (rest.drop (k - 1)) = .ok later ∧ c :: later = cs := by
      cases hd : decodeFrom (start + k) (rest.drop (k - 1)) with
      | error e => simp [hd, Except.map] at h
      | ok later => simp only [hd, Except.map, Except.ok.injEq] at h; exact ⟨later, rfl, h⟩
    rw [(eq_encodeChar_of_front hfront).2, ih hlater]
    rfl
  | case3 start first rest k hfront => rw [decodeFrom, hfront] at h; cases h
  | case4 start first rest hfront => rw [decodeFrom, hfront] at h; cases h

/-- **Valid UTF-8 is what texts are encoded to**: decoding accepts exactly the bytes of texts. -/
theorem decode_eq_ok_iff {bytes : List UInt8} {text : String} : decode bytes = .ok text ↔ bytes = encode text := by
  constructor
  · intro h
    cases hd : decodeFrom 0 bytes with
    | error e => simp [decode, hd, Except.map] at h
    | ok cs =>
      simp only [decode, hd, Except.map, Except.ok.injEq] at h
      rw [← h, encode, String.toList_ofList]
      exact eq_encode_of_decodeFrom hd
  · rintro rfl
    rw [decode, encode, decodeFrom_encode]
    exact congrArg Except.ok String.ofList_toList

/-- the bytes of a character are those that the standard library stores for it -/
theorem encodeChar_eq_utf8EncodeChar (c : Char) : encodeChar c = String.utf8EncodeChar c := by
  have hvalid : c.toNat < 0xD800 ∨ 0xDFFF < c.toNat ∧ c.toNat < 0x110000 := c.valid
  have hbyte {m n : Nat} (h : m = n) : UInt8.ofNat m = UInt8.ofNat n := congrArg UInt8.ofNat h
  unfold encodeChar String.utf8EncodeChar
  simp only [Char.toNat_val]
  split_ifs
  all_goals first
    | omega
    | rfl
    | rw [List.cons.injEq, List.cons.injEq]
      exact ⟨hbyte (by omega), hbyte (by omega), rfl⟩
    | rw [List.cons.injEq, List.cons.injEq, List.cons.injEq]
      exact ⟨hbyte (by omega), hbyte (by omega), hbyte (by omega), rfl⟩
    | rw [List.cons.injEq, List.cons.injEq, List.cons.injEq, List.cons.injEq]
      exact ⟨hbyte (by omega), hbyte (by omega), hbyte (by omega), hbyte (by omega), rfl⟩

/-- the bytes of a text are those that the standard library stores for it -/
theorem encode_eq_toByteArray (text : String) : encode text = text.toByteArray.data.toList := by
  rw [← String.ofList_toList (s := text), String.toByteArray_ofList, List.utf8Encode,
    List.toList_data_toByteArray, encode, String.toList_ofList]
  exact congrArg text.toList.flatMap (funext encodeChar_eq_utf8EncodeChar)

theorem encode_injective {s t : String} (h : encode s = encode t) : s = t := by
  rw [encode_eq_toByteArray, encode_eq_toByteArray] at h
  exact String.toByteArray_inj.1 (ByteArray.ext (Array.toList_inj.1 h))

end GlyphImage.Utf8
