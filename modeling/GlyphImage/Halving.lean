/-
Searching positions by halving. `last` keeps the lower or the upper half of a window until one position is left. Where
the positions that satisfy a predicate come before those that do not, this is the last one that satisfies it; anywhere
else it is still some position of the window (`last_lt`, `last_splits`).
-/

namespace GlyphImage.Halving

/-- halves the window of `size` positions from `base` on until one is left: the upper half stays if its first position
satisfies `below`, the lower half otherwise -/
def last (below : Nat → Bool) (base size : Nat) : Nat :=
  if 1 < size then
    let half := size / 2
    last below (if below (base + half) then base + half else base) (size - half)
  else base
termination_by size

theorem last_mem_window (below : Nat → Bool) (base size : Nat) (h : 0 < size) :
    base ≤ last below base size ∧ last below base size < base + size := by
  induction size using Nat.strongRecOn generalizing base with
  | ind size ih =>
    rw [last]
    by_cases hs : 1 < size
    · have lower := ih (size - size / 2) (by omega) base (by omega)
      have upper := ih (size - size / 2) (by omega) (base + size / 2) (by omega)
      simp only [if_pos hs]
      split <;> omega
    · rw [if_neg hs]; omega

/-- the search never leaves its window -/
theorem last_lt (below : Nat → Bool) (size : Nat) (h : 0 < size) : last below 0 size < size := by
  have := last_mem_window below 0 size h
  omega

/-- where the positions below come first, and the window starts with one, the search ends at the last of them -/
theorem last_splits (below : Nat → Bool) (base size : Nat) (hsize : 0 < size) (hbase : below base = true)
    (hfirst : ∀ q r, base ≤ q → q ≤ r → r < base + size → below r = true → below q = true) :
    below (last below base size) = true ∧
      ∀ q, last below base size < q → q < base + size → below q = false := by
  induction size using Nat.strongRecOn generalizing base with
  | ind size ih =>
    rw [last]
    by_cases hs : 1 < size
    · rw [if_pos hs]
      simp only
      cases hmid : below (base + size / 2) with
      | true =>
        obtain ⟨hlast, habove⟩ := ih (size - size / 2) (by omega) (base + size / 2) (by omega) hmid
          fun q r hq hqr hr => hfirst q r (by omega) hqr (by omega)
        exact ⟨hlast, fun q hq hlt => habove q hq (by omega)⟩
      | false =>
        obtain ⟨hlast, habove⟩ := ih (size - size / 2) (by omega) base (by omega) hbase
          fun q r hq hqr hr => hfirst q r hq hqr (by omega)
        refine ⟨hlast, fun q hq hlt => ?_⟩
        by_cases hin : q < base + (size - size / 2)
        · exact habove q hq hin
        · -- behind the lower half, so at or behind its first position that is not below
          cases hbelow : below q with
          | false => rfl
          | true => exact absurd (hfirst (base + size / 2) q (by omega) (by omega) hlt hbelow) (by simp [hmid])
    · rw [if_neg hs]
      exact ⟨hbase, fun q hq hlt => absurd hlt (by omega)⟩

end GlyphImage.Halving
