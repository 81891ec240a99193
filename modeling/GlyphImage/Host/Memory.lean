/-
A memory of fixed size as a place to write to, filled from the front. One write stores what there is room for and says
how many bytes that is; `Memory.writeAll` writes what is left again and again, and fails once a write stores nothing, so
that a piece may be stored in part. What is stored does not depend on the pieces in which it came
(`Memory.store_append`). Therefore the room alone decides how writing ends and what is then in the memory
(`Memory.writeAll_eq`, `Memory.writeEach_eq`).
-/
import GlyphImage.IoError

namespace GlyphImage

/-- a memory that never holds more than its capacity -/
@[ext]
structure Memory where
  capacity : Nat
  stored : Array UInt8
  size_le_capacity : stored.size ≤ capacity
  deriving DecidableEq, Repr

namespace Memory

/-- a memory that holds nothing yet -/
def empty (capacity : Nat) : Memory := ⟨capacity, #[], Nat.zero_le _⟩

/-- the number of bytes that there is room for -/
def free (m : Memory) : Nat := m.capacity - m.stored.size

/-- the memory with as many of the bytes added as there is room for -/
def store (m : Memory) (bytes : List UInt8) : Memory where
  capacity := m.capacity
  stored := m.stored ++ (bytes.take m.free).toArray
  size_le_capacity := by
    have h := m.size_le_capacity
    simp only [Array.size_append, List.size_toArray, List.length_take, free]
    omega

/-- one write: the number of bytes that it stored, and the memory after it -/
def write (m : Memory) (bytes : List UInt8) : Nat × Memory := (min bytes.length m.free, m.store bytes)

/-- writes until no byte is left; a write that stores nothing is an error -/
def writeAll (m : Memory) : List UInt8 → Except IoError Unit × Memory
  | [] => (.ok (), m)
  | byte :: rest =>
    match m.write (byte :: rest) with
    | (0, m') => (.error .writeZero, m')
    | (count + 1, m') => m'.writeAll (rest.drop count)
termination_by bytes => bytes.length
decreasing_by
  simp only [List.length_drop, List.length_cons]
  omega

/-- writes pieces one after another, up to the first error -/
def writeEach (m : Memory) : List (List UInt8) → Except IoError Unit × Memory
  | [] => (.ok (), m)
  | piece :: rest =>
    match m.writeAll piece with
    | (.error e, m') => (.error e, m')
    | (.ok (), m') => m'.writeEach rest

/-! ## Laws -/

variable {m : Memory}

theorem free_empty (capacity : Nat) : (empty capacity).free = capacity := rfl

theorem stored_store (m : Memory) (bytes : List UInt8) :
    (m.store bytes).stored = m.stored ++ (bytes.take m.free).toArray := rfl

theorem stored_store_empty (capacity : Nat) (bytes : List UInt8) :
    ((empty capacity).store bytes).stored.toList = bytes.take capacity := by
  simp [store, empty, free]

/-- what is stored takes its room -/
theorem free_store (m : Memory) (bytes : List UInt8) : (m.store bytes).free = m.free - bytes.length := by
  simp only [store, free, Array.size_append, List.size_toArray, List.length_take]
  omega

theorem store_nil (m : Memory) : m.store [] = m := by
  simp [store]

/-- a full memory stays as it is -/
theorem store_of_full (h : m.free = 0) (bytes : List UInt8) : m.store bytes = m := by
  simp [store, h]

/-- **Storing piece after piece is storing everything at once.** -/
theorem store_append (m : Memory) (bytes bytes' : List UInt8) :
    m.store (bytes ++ bytes') = (m.store bytes).store bytes' := by
  refine Memory.ext rfl ?_
  calc (m.store (bytes ++ bytes')).stored
      = m.stored ++ (bytes.take m.free ++ bytes'.take (m.free - bytes.length)).toArray := by
        rw [stored_store, List.take_append]
    _ = (m.store bytes).stored ++ (bytes'.take (m.store bytes).free).toArray := by
        rw [free_store, stored_store, Array.append_assoc, ← List.append_toArray]

/-! ## Writing -/

/-- **A piece is stored as far as there is room**, and it is an error if that is not far enough. -/
theorem writeAll_eq (m : Memory) (bytes : List UInt8) :
    m.writeAll bytes = (if bytes.length ≤ m.free then .ok () else .error .writeZero, m.store bytes) := by
  fun_induction writeAll m bytes with
  | case1 m => simp [store_nil]
  | case2 m byte rest m' hwrite =>
    -- a write that stores nothing has met a full memory
    obtain ⟨hcount, rfl⟩ := Prod.mk.inj hwrite
    have hfull : m.free = 0 := by
      rw [List.length_cons] at hcount
      omega
    simp [hfull]
  | case3 m byte rest count m' hwrite ih =>
    obtain ⟨hcount, rfl⟩ := Prod.mk.inj hwrite
    rw [ih, free_store]
    rw [List.length_cons] at hcount ⊢
    rcases Nat.lt_or_ge m.free (rest.length + 1) with hshort | hroom
    · -- the first write fills the memory, and something is left over
      have hfull : (m.store (byte :: rest)).free = 0 := by
        rw [free_store, List.length_cons]
        omega
      rw [store_of_full hfull, List.length_drop, if_neg (by omega), if_neg (by omega)]
    · have hdone : rest.drop count = [] := List.drop_eq_nil_of_le (by omega)
      rw [hdone, store_nil, List.length_nil, if_pos (Nat.zero_le _), if_pos hroom]

/-- **Pieces are stored as if they were one**: the first that finds too little room ends it with the memory full. -/
theorem writeEach_eq (m : Memory) (pieces : List (List UInt8)) :
    m.writeEach pieces =
      (if pieces.flatten.length ≤ m.free then .ok () else .error .writeZero, m.store pieces.flatten) := by
  induction pieces generalizing m with
  | nil => simp [writeEach, store_nil]
  | cons piece rest ih =>
    rw [writeEach, writeAll_eq, List.flatten_cons, store_append, List.length_append]
    rcases Nat.lt_or_ge m.free piece.length with hshort | hroom
    · have hfull : (m.store piece).free = 0 := by
        rw [free_store]
        omega
      rw [if_neg (by omega), if_neg (by omega), store_of_full hfull]
    · have hiff : rest.flatten.length ≤ m.free - piece.length ↔ piece.length + rest.flatten.length ≤ m.free := by
        omega
      rw [if_pos hroom]
      simp only [ih, free_store, hiff]

end Memory

end GlyphImage
