/-
Binary portable pixmaps (`P6`): a text header with the dimensions, then three bytes per pixel. A pixmap has no alpha
channel, so a canvas is laid over white first (`blendOverWhite`). `chunks` gives the pieces of a canvas's file in
writing order, and `encode` the whole file. `decode` reads any file of this kind, whatever white space parts its header.
`writeTo` writes the pieces into a memory of fixed size, which may be full before the last of them.
-/
import GlyphImage.Canvas
import GlyphImage.Host.Memory
import GlyphImage.Text.Utf8

namespace GlyphImage.Pixmap

/-! ## Colours -/

/-- a colour channel over white: the exact blend, rounded down -/
def blendOverWhite (channel alpha : UInt8) : UInt8 :=
  UInt8.ofNat ((channel.toNat * alpha.toNat + 255 * (255 - alpha.toNat)) / 255)

/-- the three bytes of a pixel over white -/
def triple (p : Pixel) : List UInt8 :=
  [blendOverWhite p.red p.alpha, blendOverWhite p.green p.alpha, blendOverWhite p.blue p.alpha]

/-! ## Files -/

/-- the text before the pixel data, with its last line break -/
def header (width height : Nat) : String := s!"P6\n{width} {height}\n255\n"

/-- the pieces of a canvas's file in writing order: the header, then one triple per pixel -/
def chunks (c : Canvas) : List (List UInt8) := Utf8.encode (header c.width c.height) :: c.pixels.map triple

/-- the file of a canvas -/
def encode (c : Canvas) : List UInt8 := (chunks c).flatten

/-! ## Reading -/

/-- an image as a file of this kind holds it: three bytes per pixel, row by row -/
structure Image where
  width : Nat
  height : Nat
  samples : List UInt8
  deriving DecidableEq, Repr

/-- a channel of a pixel: 0 is red, 1 is green, and 2 is blue -/
def Image.channel? (image : Image) (x y k : Nat) : Option UInt8 :=
  if x < image.width ∧ k < 3 then image.samples[3 * (y * image.width + x) + k]? else none

/-- a decimal digit -/
def digit? (b : UInt8) : Option Nat := if 48 ≤ b ∧ b ≤ 57 then some (b.toNat - 48) else none

/-- goes on with a decimal number of which `soFar` is read; gives the number and what follows it -/
def digits (soFar : Nat) : List UInt8 → Nat × List UInt8
  | [] => (soFar, [])
  | b :: rest =>
    match digit? b with
    | some d => digits (10 * soFar + d) rest
    | none => (soFar, b :: rest)

/-- a decimal number of at least one digit, and what follows it -/
def number? : List UInt8 → Option (Nat × List UInt8)
  | [] => none
  | b :: rest => (digit? b).map fun d => digits d rest

/-- drops one expected byte -/
def expect? (wanted : UInt8) : List UInt8 → Option (List UInt8)
  | [] => none
  | b :: rest => if b = wanted then some rest else none

/-- white space: a blank, a tabulator, or one of the line and page breaks -/
def isBlank (b : UInt8) : Bool := b = 32 || (9 ≤ b && b ≤ 13)

/-- drops one byte of white space -/
def blank? : List UInt8 → Option (List UInt8)
  | [] => none
  | b :: rest => if isBlank b then some rest else none

/-- drops white space, of which there must be some -/
def blanks? (bytes : List UInt8) : Option (List UInt8) := (blank? bytes).map (·.dropWhile isBlank)

/-- reads a whole file: the magic; two dimensions and the maximum value 255, white space before each; one byte of white
space; and exactly the samples -/
def decode (file : List UInt8) : Option Image := do
  let rest ← expect? 80 file
  let rest ← expect? 54 rest
  let rest ← blanks? rest
  let (width, rest) ← number? rest
  let rest ← blanks? rest
  let (height, rest) ← number? rest
  let rest ← blanks? rest
  let (maximum, rest) ← number? rest
  let samples ← blank? rest
  if maximum = 255 ∧ samples.length = 3 * (width * height) then some ⟨width, height, samples⟩ else none

/-! ## Writing into limited memory -/

/-- writes a canvas's file into a memory, piece by piece -/
def writeTo (m : Memory) (c : Canvas) : Except IoError Unit × Memory := m.writeEach (chunks c)

/-- what a memory of `capacity` bytes holds after a canvas's file was written into it, and whether all of it found room -/
def writeInto (capacity : Nat) (c : Canvas) : List UInt8 × Bool :=
  let (result, m) := writeTo (.empty capacity) c
  (m.stored.toList, result.isOk)

end GlyphImage.Pixmap
