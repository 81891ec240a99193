/-
PFF2 files. A file is read in three steps: `Section.split` cuts it up, `Draft.add` takes each section's payload into the
font's properties and character index, and at the `DATA` header `readGlyphs` reads the indexed glyph records, which are
addressed from the start of the file. The first fault from the left decides the error. Index entries without a whole
record are skipped with a warning; of several readable entries for one code the first counts. What a file looks like
apart from any reader, and how a font is laid out as one, is in `Pff2.Layout`.
-/
import GlyphImage.Pff2.Font
import GlyphImage.Pff2.Section

namespace GlyphImage.Pff2

/-! ## The character index -/

/-- where the glyph of a code is -/
structure IndexEntry where
  code : UInt32
  /-- how the record is stored; always ignored -/
  flags : UInt8
  /-- counted from the start of the file -/
  offset : UInt32
  deriving DecidableEq, Repr

namespace IndexEntry

/-- the entries of an index, if it consists of whole ones -/
def decodeAll : List UInt8 → Option (List IndexEntry)
  | [] => some []
  | c1 :: c2 :: c3 :: c4 :: f :: o1 :: o2 :: o3 :: o4 :: rest =>
    (decodeAll rest).map (⟨Bytes.uint32 c1 c2 c3 c4, f, Bytes.uint32 o1 o2 o3 o4⟩ :: ·)
  | _ => none

/-- the nine bytes of an entry -/
def encode (e : IndexEntry) : List UInt8 := Bytes.ofUInt32 e.code ++ [e.flags] ++ Bytes.ofUInt32 e.offset

/-- reads the record of an entry, or says why it cannot be read -/
def read (file : Array UInt8) (e : IndexEntry) : Except Warning Glyph :=
  if file.size < e.offset.toNat then .error (.pastEnd e.code)
  else
    match Glyph.read? file e.code e.offset.toNat with
    | some g => .ok g
    | none => .error (.truncated e.code)

/-- the glyph of an entry that can be read -/
def glyph? (file : Array UInt8) (e : IndexEntry) : Option Glyph := (e.read file).toOption

/-- the warning about an entry that cannot be read -/
def warning? (file : Array UInt8) (e : IndexEntry) : Option Warning :=
  match e.read file with
  | .ok _ => none
  | .error w => some w

end IndexEntry

/-! ## The glyph table -/

/-- of neighbours with one code only the first stays -/
def dropRepeated : List Glyph → List Glyph
  | [] => []
  | g :: rest =>
    match dropRepeated rest with
    | [] => [g]
    | h :: later => if g.code = h.code then g :: later else g :: h :: later

/-- the readable glyphs of an index in rising order, one for each code -/
def readGlyphs (file : Array UInt8) (index : List IndexEntry) : List Glyph :=
  dropRepeated ((index.filterMap (IndexEntry.glyph? file)).mergeSort fun g h => g.code ≤ h.code)

/-! ## Properties -/

/-- a text may end with one NUL, which is no part of it -/
def trimNul (bytes : List UInt8) : List UInt8 := if bytes.getLast? = some 0 then bytes.dropLast else bytes

/-- a section's payload as text -/
def textOf (payload : List UInt8) : Except ParseError String :=
  match Utf8.decode (trimNul payload) with
  | .ok text => .ok text
  | .error fault => .error (.invalidText fault)

/-- a section's payload as a number -/
def numberOf : List UInt8 → Except ParseError UInt16
  | [hi, lo] => .ok (Bytes.uint16 hi lo)
  | payload => .error (.invalidNumberLength payload.length)

/-- a section's payload as a character index -/
def indexOf (payload : List UInt8) : Except ParseError (List IndexEntry) :=
  match IndexEntry.decodeAll payload with
  | some index => .ok index
  | none => .error .invalidCharacterIndex

/-- what the sections read so far say -/
structure Draft extends Properties where
  index : List IndexEntry := []
  deriving DecidableEq, Repr

namespace Draft

/-- takes in a section; a later one of the same name replaces an earlier one, and unknown names are skipped -/
def add (d : Draft) (s : Section) : Except ParseError Draft :=
  match s.tag.kind? with
  | some .name => (textOf s.payload).map ({ d with name := · })
  | some .family => (textOf s.payload).map ({ d with family := · })
  | some .weight => (textOf s.payload).map ({ d with weight := · })
  | some .pointSize => (numberOf s.payload).map ({ d with pointSize := · })
  | some .maxCharWidth => (numberOf s.payload).map ({ d with maxCharWidth := · })
  | some .maxCharHeight => (numberOf s.payload).map ({ d with maxCharHeight := · })
  | some .ascent => (numberOf s.payload).map ({ d with ascent := · })
  | some .descent => (numberOf s.payload).map ({ d with descent := · })
  | some .charIndex => (indexOf s.payload).map ({ d with index := · })
  | some .glyphData => .ok d
  | none => .ok d

/-- takes in sections from left to right, up to the first fault -/
def addAll (d : Draft) : List Section → Except ParseError Draft
  | [] => .ok d
  | s :: rest =>
    match d.add s with
    | .ok d' => d'.addAll rest
    | .error e => .error e

end Draft

/-! ## Files -/

/-- a font with the warnings about it -/
structure Parsed where
  font : Font
  warnings : List Warning
  deriving DecidableEq, Repr

/-- the font of a file whose sections say `d` and stop with `ending` -/
def finish (file : Array UInt8) (d : Draft) : Ending → Except ParseError Parsed
  | .endOfFile => .ok ⟨⟨d.toProperties, #[]⟩, []⟩
  | .glyphData =>
    .ok ⟨⟨d.toProperties, (readGlyphs file d.index).toArray⟩, d.index.filterMap (IndexEntry.warning? file)⟩
  | .shortHeader => .error .insufficientHeaderBytes
  | .truncated tag => .error (.truncatedSection tag)

/-- reads a file -/
def parse (file : List UInt8) : Except ParseError Parsed :=
  if magic.isPrefixOf file then
    let (sections, ending) := Section.split (file.drop magic.length)
    match Draft.addAll {} sections with
    | .ok d => finish file.toArray d ending
    | .error e => .error e
  else .error .badMagicBytes

end GlyphImage.Pff2
