import Mathlib.Data.List.Induction
import EarlyBoot.Terminated.Buffer
import EarlyBoot.Proofs.Terminated

/-!
Turning a string around where it stands. Two indices move towards each other and the bytes at them
change places; no exchange is out of range, and where the indices meet the string is the other way
round.
-/

namespace EarlyBoot

/-- Exchange the bytes at two indices. -/
def Region.swap (buffer : Bytes) (i j : Nat) : Except Fault Bytes :=
  if i < buffer.length ∧ j < buffer.length then
    .ok ((buffer.set i (buffer.getD j 0)).set j (buffer.getD i 0))
  else .error .outOfBounds

namespace Terminated

/-- Exchange the bytes at `i` and `j` and go inwards, until the indices have met. The index `j`
goes down with the recursion: where the bytes at `i` and `j` change places, there is an index
before `j`. -/
def exchange (buffer : Bytes) (i : Nat) : Nat → Except Fault Bytes
  | 0 => .ok buffer
  | j + 1 =>
    if i < j + 1 then do exchange (← Region.swap buffer i (j + 1)) (i + 1) j
    else .ok buffer

/-- Turn the string around in its own bytes. -/
def reverseInPlace (buffer : Bytes) : Except Fault Bytes :=
  if length buffer < 2 then .ok buffer else exchange buffer 0 (length buffer - 1)

theorem swap_ends (before inner behind : Bytes) (x y : UInt8) :
    Region.swap (before ++ (x :: inner ++ [y] ++ behind)) before.length
        (before.length + inner.length + 1) =
      .ok (before ++ (y :: inner ++ [x] ++ behind)) := by
  have hroom : before.length + inner.length + 1 <
      (before ++ (x :: inner ++ [y] ++ behind)).length := by
    simp
    omega
  have hfirst : (before ++ (x :: inner ++ [y] ++ behind)).getD before.length 0 = x := by simp
  have hlast : (before ++ (x :: inner ++ [y] ++ behind)).getD
      (before.length + inner.length + 1) 0 = y := by
    rw [Nat.add_assoc]
    simp
  rw [Region.swap, if_pos ⟨by omega, hroom⟩, hfirst, hlast, Nat.add_assoc]
  simp

theorem exchange_of_le {buffer : Bytes} {i j : Nat} (h : j ≤ i) :
    exchange buffer i j = .ok buffer := by
  cases j with
  | zero => rfl
  | succ j => rw [exchange, if_neg (Nat.not_lt.mpr h)]

/-- The bytes between two indices change their order, and no others do. -/
theorem exchange_eq_reverse (before middle behind : Bytes) {j : Nat}
    (hends : before.length + middle.length = j + 1) :
    exchange (before ++ (middle ++ behind)) before.length j =
      .ok (before ++ (middle.reverse ++ behind)) := by
  -- One exchange takes a byte off each end of the middle, so the induction does as well.
  induction middle using List.bidirectionalRec generalizing before behind j with
  | nil => exact exchange_of_le (by simp only [List.length_nil] at hends; omega)
  | singleton x => exact exchange_of_le (by simp only [List.length_singleton] at hends; omega)
  | cons_append x inner y ih =>
      obtain rfl : j = before.length + inner.length + 1 := by
        simp only [List.length_cons, List.length_append, List.length_nil] at hends
        omega
      have hends : (before ++ [y]).length + inner.length = before.length + inner.length + 1 := by
        rw [List.length_append, List.length_singleton]
        omega
      have hinner := ih (before ++ [y]) ([x] ++ behind) hends
      rw [exchange, if_pos (by omega), ← List.cons_append, swap_ends]
      simpa [bind, Except.bind] using hinner

/-- Turning a string around in its own bytes is possible in every buffer. -/
theorem reverseInPlace_eq (buffer : Bytes) : reverseInPlace buffer = .ok (reverse buffer) := by
  have hsplit := content_append_drop buffer
  rw [reverseInPlace, reverse]
  split
  · rename_i hshort
    have hself : (content buffer).reverse = content buffer := by
      rcases hcontent : content buffer with _ | ⟨x, _ | ⟨y, rest⟩⟩
      · rfl
      · rfl
      · simp only [length, hcontent, List.length_cons] at hshort
        omega
    rw [hself, hsplit]
  · rename_i hlong
    have hends : ([] : Bytes).length + (content buffer).length = length buffer - 1 + 1 := by
      simp only [length, List.length_nil] at hlong ⊢
      omega
    have hexchange := exchange_eq_reverse [] (content buffer) (buffer.drop (length buffer)) hends
    rwa [List.nil_append, hsplit] at hexchange

end Terminated

end EarlyBoot
