/-
Buffered writing. Small pieces are held back and sent off together: `Buffer.batches` says which writes a list of pieces
comes down to, and `Host.writeAll` makes writes one after another, up to the first that fails. A failure may show late,
but what arrives is what was given (`Buffer.flatten_batches`).
-/
import GlyphImage.Host.Basic

namespace GlyphImage

namespace Buffer

/-- the bytes that a buffer has room for -/
def capacity : Nat := 8192

/-- sends off what is held, if anything is -/
def sendOff (held : Array UInt8) : List (List UInt8) := if held.isEmpty then [] else [held.toList]

/-- the writes that pieces come down to while `held` waits. A piece that finds no room sends off what is held, a piece as
large as the buffer is never held, and at the end nothing stays behind -/
def batches (held : Array UInt8) : List (List UInt8) → List (List UInt8)
  | [] => sendOff held
  | piece :: rest =>
    if capacity ≤ piece.length then sendOff held ++ piece :: batches #[] rest
    else if held.size + piece.length ≤ capacity then batches (held ++ piece) rest
    else held.toList :: batches piece.toArray rest

theorem flatten_sendOff (held : Array UInt8) : (sendOff held).flatten = held.toList := by
  unfold sendOff
  split
  · rename_i hempty
    simp [Array.isEmpty_iff.1 hempty]
  · simp

/-- **Nothing is lost in a buffer**: the writes together are what waited and all pieces. -/
theorem flatten_batches (held : Array UInt8) (pieces : List (List UInt8)) :
    (batches held pieces).flatten = held.toList ++ pieces.flatten := by
  induction pieces generalizing held with
  | nil => simp [batches, flatten_sendOff]
  | cons piece rest ih =>
    unfold batches
    split
    · simp [ih, flatten_sendOff]
    · split
      · simp [ih]
      · simp [ih]

end Buffer

variable {m : Type → Type} [Monad m] {handle : Type}

/-- makes writes to a file one after another, up to the first that fails -/
def Host.writeAll (host : Host m handle) (file : handle) : List (List UInt8) → m (Except IoError Unit)
  | [] => pure (.ok ())
  | bytes :: rest => do
    match ← host.writeFile file bytes with
    | .error e => pure (.error e)
    | .ok () => host.writeAll file rest

end GlyphImage
