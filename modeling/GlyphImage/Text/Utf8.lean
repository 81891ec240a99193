/-
UTF-8 (Unicode, table 3-7) over lists of bytes. `front` reads one sequence and tells the three things apart that can
stand at the front of a byte string: a whole character, bytes that no continuation can repair, and a sequence that the
end of the string cuts off. On it rest `decode`, which stops at the first fault and says where it is, and `lossy`,
which puts U+FFFD in place of each faulty part. `encode` is the way back.
-/

namespace GlyphImage.Utf8

/-! ## One sequence -/

/-- what stands at the front of a byte string -/
inductive Front where
  /-- a whole character that takes `length` bytes -/
  | char (c : Char) (length : Nat)
  /-- `length` bytes that start no character, whatever follows -/
  | broken (length : Nat)
  /-- the string ends inside a sequence without a fault -/
  | cut
  deriving DecidableEq, Repr

/-- a continuation byte -/
def isTail (b : UInt8) : Bool := 0x80 ≤ b && b ≤ 0xBF

/-- the six payload bits of a continuation byte -/
def tailBits (b : UInt8) : Nat := b.toNat - 0x80

/-- the second byte of a three byte sequence: the first byte rules out overlong forms and surrogates -/
def isSecondOfThree (first second : UInt8) : Bool :=
  if first = 0xE0 then 0xA0 ≤ second && second ≤ 0xBF
  else if first = 0xED then 0x80 ≤ second && second ≤ 0x9F
  else isTail second

/-- the second byte of a four byte sequence: the first byte rules out overlong forms and values above U+10FFFF -/
def isSecondOfFour (first second : UInt8) : Bool :=
  if first = 0xF0 then 0x90 ≤ second && second ≤ 0xBF
  else if first = 0xF4 then 0x80 ≤ second && second ≤ 0x8F
  else isTail second

/-- the rest of a two byte sequence -/
def frontTwo (first : UInt8) : List UInt8 → Front
  | [] => .cut
  | b :: _ =>
    if isTail b then .char (Char.ofNat ((first.toNat - 0xC0) * 64 + tailBits b)) 2 else .broken 1

/-- the rest of a three byte sequence -/
def frontThree (first : UInt8) : List UInt8 → Front
  | [] => .cut
  | b :: rest =>
    if isSecondOfThree first b then
      match rest with
      | [] => .cut
      | c :: _ =>
        if isTail c then .char (Char.ofNat (((first.toNat - 0xE0) * 64 + tailBits b) * 64 + tailBits c)) 3
        else .broken 2
    else .broken 1

/-- the rest of a four byte sequence -/
def frontFour (first : UInt8) : List UInt8 → Front
  | [] => .cut
  | b :: rest =>
    if isSecondOfFour first b then
      match rest with
      | [] => .cut
      | c :: rest =>
        if isTail c then
          match rest with
          | [] => .cut
          | d :: _ =>
            if isTail d then
              .char (Char.ofNat ((((first.toNat - 0xF0) * 64 + tailBits b) * 64 + tailBits c) * 64 + tailBits d)) 4
            else .broken 3
        else .broken 2
    else .broken 1

/-- reads the sequence that starts with `first` and goes on with `rest` -/
def front (first : UInt8) (rest : List UInt8) : Front :=
  if first < 0x80 then .char (Char.ofNat first.toNat) 1
  else if first < 0xC2 then .broken 1
  else if first < 0xE0 then frontTwo first rest
  else if first < 0xF0 then frontThree first rest
  else if first < 0xF5 then frontFour first rest
  else .broken 1

/-! ## Whole strings -/

/-- the first fault of a byte string that is not UTF-8 -/
inductive Fault where
  /-- at `index` stand `length` bytes that start no character -/
  | broken (length index : Nat)
  /-- the string ends inside the sequence that starts at `index` -/
  | cut (index : Nat)
  deriving DecidableEq, Repr

/-- the fault in words -/
def Fault.message : Fault → String
  | .broken length index => s!"invalid utf-8 sequence of {length} bytes from index {index}"
  | .cut index => s!"incomplete utf-8 byte sequence from index {index}"

/-- the characters of the bytes from position `start` on, or the first fault -/
def decodeFrom (start : Nat) : List UInt8 → Except Fault (List Char)
  | [] => .ok []
  | first :: rest =>
    match front first rest with
    | .char c length => (decodeFrom (start + length) (rest.drop (length - 1))).map (c :: ·)
    | .broken length => .error (.broken length start)
    | .cut => .error (.cut start)
termination_by bytes => bytes.length
decreasing_by simp only [List.length_cons, List.length_drop]; omega

/-- the text with these bytes, or the first fault -/
def decode (bytes : List UInt8) : Except Fault String := (decodeFrom 0 bytes).map String.ofList

/-- the characters of a byte string, each faulty part replaced by one U+FFFD -/
def lossy : List UInt8 → List Char
  | [] => []
  | first :: rest =>
    match front first rest with
    | .char c length => c :: lossy (rest.drop (length - 1))
    | .broken length => '\uFFFD' :: lossy (rest.drop (length - 1))
    | .cut => ['\uFFFD']
termination_by bytes => bytes.length
decreasing_by all_goals simp only [List.length_cons, List.length_drop]; omega

/-! ## The way back -/

/-- the bytes of one character -/
def encodeChar (c : Char) : List UInt8 :=
  let n := c.toNat
  if n < 0x80 then [UInt8.ofNat n]
  else if n < 0x800 then [UInt8.ofNat (0xC0 + n / 64), UInt8.ofNat (0x80 + n % 64)]
  else if n < 0x10000 then
    [UInt8.ofNat (0xE0 + n / 4096), UInt8.ofNat (0x80 + n / 64 % 64), UInt8.ofNat (0x80 + n % 64)]
  else
    [UInt8.ofNat (0xF0 + n / 262144), UInt8.ofNat (0x80 + n / 4096 % 64), UInt8.ofNat (0x80 + n / 64 % 64),
      UInt8.ofNat (0x80 + n % 64)]

/-- the bytes of a text -/
def encode (text : String) : List UInt8 := text.toList.flatMap encodeChar

theorem encode_append (text rest : String) : encode (text ++ rest) = encode text ++ encode rest := by
  rw [encode, String.toList_append, List.flatMap_append, encode, encode]

end GlyphImage.Utf8
