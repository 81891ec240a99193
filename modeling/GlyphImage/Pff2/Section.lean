/-
The outer shape of a PFF2 file after its magic bytes: sections of a four byte name, a four byte length and a payload.
The section `DATA` is the last one; its length says nothing and it is not cut out. `Section.front` reads one section,
which takes its header and its payload off the bytes that are left (`length_of_front`), and `Section.split` goes on
until no further one can be read, so that every byte string has exactly one division. `Section.encode` writes a section.
-/
import GlyphImage.Bytes.BigEndian
import GlyphImage.Pff2.Error

namespace GlyphImage.Pff2

/-! ## Names -/

/-- the first section of every file, which names the format -/
def magic : List UInt8 := [0x46, 0x49, 0x4C, 0x45, 0, 0, 0, 4, 0x50, 0x46, 0x46, 0x32]

/-- what a section holds -/
inductive Kind where
  | name
  | family
  | pointSize
  | weight
  | maxCharWidth
  | maxCharHeight
  | ascent
  | descent
  | charIndex
  | glyphData
  deriving DecidableEq, Repr

/-- the name of a section of this kind -/
def Kind.tag : Kind → Tag
  | name => ⟨0x4E, 0x41, 0x4D, 0x45⟩
  | family => ⟨0x46, 0x41, 0x4D, 0x49⟩
  | pointSize => ⟨0x50, 0x54, 0x53, 0x5A⟩
  | weight => ⟨0x57, 0x45, 0x49, 0x47⟩
  | maxCharWidth => ⟨0x4D, 0x41, 0x58, 0x57⟩
  | maxCharHeight => ⟨0x4D, 0x41, 0x58, 0x48⟩
  | ascent => ⟨0x41, 0x53, 0x43, 0x45⟩
  | descent => ⟨0x44, 0x45, 0x53, 0x43⟩
  | charIndex => ⟨0x43, 0x48, 0x49, 0x58⟩
  | glyphData => ⟨0x44, 0x41, 0x54, 0x41⟩

/-- every kind of section -/
def Kind.all : List Kind :=
  [.name, .family, .pointSize, .weight, .maxCharWidth, .maxCharHeight, .ascent, .descent, .charIndex, .glyphData]

/-- what a section of this name holds, if the name is known -/
def Tag.kind? (t : Tag) : Option Kind := Kind.all.find? fun k => k.tag = t

/-! ## Sections -/

/-- a complete section -/
structure Section where
  tag : Tag
  payload : List UInt8
  deriving DecidableEq, Repr

/-- how the sections of a byte string stop -/
inductive Ending where
  /-- with its last byte -/
  | endOfFile
  /-- at a `DATA` header -/
  | glyphData
  /-- at bytes that are too few for a header -/
  | shortHeader
  /-- at a header that claims more bytes than are left -/
  | truncated (tag : Tag)
  deriving DecidableEq, Repr

/-- what stands at the front of the bytes that are left -/
inductive Front where
  /-- a complete section, and what follows it -/
  | whole (s : Section) (rest : List UInt8)
  /-- no further section -/
  | stop (ending : Ending)
  deriving DecidableEq, Repr

namespace Section

/-- the number of bytes that a section takes -/
def size (s : Section) : Nat := 8 + s.payload.length

/-- reads one header, and its payload if all of it is there -/
def front : List UInt8 → Front
  | [] => .stop .endOfFile
  | t1 :: t2 :: t3 :: t4 :: l1 :: l2 :: l3 :: l4 :: rest =>
    let tag : Tag := ⟨t1, t2, t3, t4⟩
    let length := (Bytes.uint32 l1 l2 l3 l4).toNat
    if tag = Kind.glyphData.tag then .stop .glyphData
    else if length ≤ rest.length then .whole ⟨tag, rest.take length⟩ (rest.drop length)
    else .stop (.truncated tag)
  | _ => .stop .shortHeader

/-- a section and what follows it make up the bytes -/
theorem length_of_front {bytes rest : List UInt8} {s : Section} (h : front bytes = .whole s rest) :
    bytes.length = s.size + rest.length := by
  unfold front at h
  split at h
  · cases h
  · simp only at h
    split at h
    · cases h
    · split at h
      · cases h
        simp only [size, List.length_cons, List.length_take, List.length_drop]
        omega
      · cases h
  · cases h

/-- the complete sections at the front of a byte string, and how they stop -/
def split (bytes : List UInt8) : List Section × Ending :=
  match h : front bytes with
  | .stop ending => ([], ending)
  | .whole s rest =>
    have : rest.length < bytes.length := by have := length_of_front h; unfold size at this; omega
    let (later, ending) := split rest
    (s :: later, ending)
termination_by bytes.length

/-- the bytes of a section -/
def encode (s : Section) : List UInt8 :=
  s.tag.bytes ++ Bytes.ofUInt32 (UInt32.ofNat s.payload.length) ++ s.payload

end Section

end GlyphImage.Pff2
