/-
What a PFF2 file looks like, apart from any reader. A `Layout` is the magic bytes, complete sections, and an end: that
of the file, or a `DATA` header and whatever follows it. `Layout.Describes` says that a file has this layout,
`Layout.Sound` that every payload can be decoded, and `Layout.Says` what the payloads decode to; each of the three is
stated through writing, not through reading. An index entry `Shows` a glyph in a file if the glyph's record stands at
the entry's offset. `Layout.ofGlyphs` lays sections and glyphs out as a file.
-/
import GlyphImage.Pff2.File

namespace GlyphImage.Pff2

/-! ## Payloads -/

/-- the payload holds these bytes as its text: followed by one NUL, or alone if they do not end in a NUL themselves -/
def HoldsText (payload text : List UInt8) : Prop :=
  payload = text ++ [0] ∨ (payload = text ∧ text.getLast? ≠ some 0)

instance (payload text : List UInt8) : Decidable (HoldsText payload text) := inferInstanceAs (Decidable (_ ∨ _))

/-- the payload can be decoded as a section of this kind: it holds the UTF-8 bytes of a text, a number takes two bytes,
and an index consists of nine bytes for each entry -/
def Kind.Admits (k : Kind) (payload : List UInt8) : Prop :=
  match k with
  | .name | .family | .weight => ∃ text, HoldsText payload (Utf8.encode text)
  | .pointSize | .maxCharWidth | .maxCharHeight | .ascent | .descent => payload.length = 2
  | .charIndex => 9 ∣ payload.length
  | .glyphData => True

namespace Section

/-- the section can stand in front of the `DATA` header: it has another name, and its length fits the length field -/
def Complete (s : Section) : Prop := s.tag ≠ Kind.glyphData.tag ∧ s.payload.length < UInt32.size

instance (s : Section) : Decidable s.Complete := inferInstanceAs (Decidable (_ ∧ _))

/-- the payload can be decoded as the name demands; under an unknown name every payload will do -/
def Sound (s : Section) : Prop := ∀ k, s.tag.kind? = some k → k.Admits s.payload

end Section

/-! ## Layouts -/

/-- what follows the sections: nothing, or a `DATA` header with any length field and anything after it -/
inductive Tail where
  | endOfFile
  | glyphData (length : UInt32) (rest : List UInt8)
  deriving DecidableEq, Repr

namespace Tail

/-- the bytes after the sections -/
def bytes : Tail → List UInt8
  | endOfFile => []
  | glyphData length rest => Kind.glyphData.tag.bytes ++ Bytes.ofUInt32 length ++ rest

/-- how the sections stop -/
def ending : Tail → Ending
  | endOfFile => .endOfFile
  | glyphData _ _ => .glyphData

end Tail

/-- a file after its magic bytes -/
structure Layout where
  sections : List Section
  tail : Tail
  deriving DecidableEq, Repr

namespace Layout

/-- the bytes of a file with this layout -/
def bytes (l : Layout) : List UInt8 := magic ++ l.sections.flatMap Section.encode ++ l.tail.bytes

/-- the file has this layout -/
def Describes (l : Layout) (file : List UInt8) : Prop := file = l.bytes ∧ ∀ s ∈ l.sections, s.Complete

instance (l : Layout) (file : List UInt8) : Decidable (l.Describes file) := inferInstanceAs (Decidable (_ ∧ _))

/-- every section's payload can be decoded -/
def Sound (l : Layout) : Prop := ∀ s ∈ l.sections, s.Sound

/-- the payload of the last section of a kind -/
def last? (l : Layout) (k : Kind) : Option (List UInt8) :=
  (l.sections.filter fun s => s.tag = k.tag).getLast?.map Section.payload

/-- the text under a name: that of the last section, empty if there is none -/
def SaysText (l : Layout) (k : Kind) (text : String) : Prop :=
  match l.last? k with
  | some payload => HoldsText payload (Utf8.encode text)
  | none => text = ""

/-- the number under a name: that of the last section, 0 if there is none -/
def SaysNumber (l : Layout) (k : Kind) (n : UInt16) : Prop :=
  match l.last? k with
  | some payload => Bytes.ofUInt16 n = payload
  | none => n = 0

/-- the entries of the character index: those of the last section, none if there is no such section -/
def HasIndex (l : Layout) (index : List IndexEntry) : Prop :=
  index.flatMap IndexEntry.encode = (l.last? .charIndex).getD []

instance (l : Layout) (index : List IndexEntry) : Decidable (l.HasIndex index) := inferInstanceAs (Decidable (_ = _))

/-- the properties that the sections spell out -/
structure Says (l : Layout) (p : Properties) : Prop where
  name : l.SaysText .name p.name
  family : l.SaysText .family p.family
  weight : l.SaysText .weight p.weight
  pointSize : l.SaysNumber .pointSize p.pointSize
  maxCharWidth : l.SaysNumber .maxCharWidth p.maxCharWidth
  maxCharHeight : l.SaysNumber .maxCharHeight p.maxCharHeight
  ascent : l.SaysNumber .ascent p.ascent
  descent : l.SaysNumber .descent p.descent

end Layout

/-! ## Records -/

/-- the bitmap has as many bytes as the size asks for -/
def Glyph.Exact (g : Glyph) : Prop := g.bitmap.size = Glyph.byteCount g.width.toNat g.height.toNat

instance (g : Glyph) : Decidable g.Exact := inferInstanceAs (Decidable (_ = _))

namespace IndexEntry

/-- the record at the entry's offset lies wholly inside the file, and it is that of the glyph -/
def Shows (file : List UInt8) (e : IndexEntry) (g : Glyph) : Prop :=
  g.code = e.code ∧ g.Exact ∧ ∃ before after, file = before ++ g.encode ++ after ∧ before.length = e.offset.toNat

/-- the record at the entry's offset lies wholly inside the file -/
def Readable (file : List UInt8) (e : IndexEntry) : Prop := ∃ g, e.Shows file g

end IndexEntry

/-- the glyph is the one that the first readable entry for its code shows -/
def FirstShown (file : List UInt8) (index : List IndexEntry) (g : Glyph) : Prop :=
  ∃ before e after, index = before ++ e :: after ∧ e.Shows file g ∧
    ∀ e' ∈ before, e'.code = g.code → ¬ e'.Readable file

/-! ## Writing -/

/-- a text as a payload, with a NUL at its end -/
def textPayload (text : String) : List UInt8 := Utf8.encode text ++ [0]

/-- the sections that hold a font's properties -/
def propertySections (p : Properties) : List Section :=
  [⟨Kind.name.tag, textPayload p.name⟩,
    ⟨Kind.family.tag, textPayload p.family⟩,
    ⟨Kind.pointSize.tag, Bytes.ofUInt16 p.pointSize⟩,
    ⟨Kind.weight.tag, textPayload p.weight⟩,
    ⟨Kind.maxCharWidth.tag, Bytes.ofUInt16 p.maxCharWidth⟩,
    ⟨Kind.maxCharHeight.tag, Bytes.ofUInt16 p.maxCharHeight⟩,
    ⟨Kind.ascent.tag, Bytes.ofUInt16 p.ascent⟩,
    ⟨Kind.descent.tag, Bytes.ofUInt16 p.descent⟩]

/-- the index of glyphs whose records follow each other from `offset` on -/
def indexFrom (offset : Nat) : List Glyph → List IndexEntry
  | [] => []
  | g :: rest => ⟨g.code, 0, UInt32.ofNat offset⟩ :: indexFrom (offset + g.encode.length) rest

namespace Layout

/-- where the records start if these sections, the index of the glyphs and the `DATA` header come before them -/
def recordsStart (sections : List Section) (glyphs : List Glyph) : Nat :=
  (magic ++ sections.flatMap Section.encode).length + (8 + 9 * glyphs.length) + 8

/-- the section that holds the index of the glyphs -/
def indexSection (sections : List Section) (glyphs : List Glyph) : Section :=
  ⟨Kind.charIndex.tag, (indexFrom (recordsStart sections glyphs) glyphs).flatMap IndexEntry.encode⟩

/-- sections and glyphs as a file: the sections, the index, and the records in the order of the glyphs -/
def ofGlyphs (sections : List Section) (glyphs : List Glyph) : Layout where
  sections := sections ++ [indexSection sections glyphs]
  tail := .glyphData 0xFFFFFFFF (glyphs.flatMap Glyph.encode)

end Layout

end GlyphImage.Pff2
