import EarlyBoot.Fault
import EarlyBoot.Proofs.Bytes

/-!
Stretches of bytes. A stretch goes on to the first byte that stops it, or to the end, and it is cut
out by indices. A cut behind the end is a fault.
-/

namespace EarlyBoot.Bytes

/-- The bytes from an index on. -/
def cutFrom (s : Bytes) (i : Nat) : Except Fault Bytes :=
  if i ≤ s.length then .ok (s.drop i) else .error .outOfBounds

/-- The bytes before an index. -/
def cutTo (s : Bytes) (i : Nat) : Except Fault Bytes :=
  if i ≤ s.length then .ok (s.take i) else .error .outOfBounds

theorem cutFrom_of_le {s : Bytes} {i : Nat} (h : i ≤ s.length) : cutFrom s i = .ok (s.drop i) :=
  if_pos h

theorem cutTo_of_le {s : Bytes} {i : Nat} (h : i ≤ s.length) : cutTo s i = .ok (s.take i) :=
  if_pos h

/-- Nothing is left, or a byte that stops a stretch comes next. -/
def StopsAt (stop : UInt8 → Bool) (rest : Bytes) : Prop :=
  ∀ c, rest.head? = some c → stop c = true

theorem stopsAt_nil (stop : UInt8 → Bool) : StopsAt stop [] := by
  intro c hc
  cases hc

theorem stopsAt_cons {stop : UInt8 → Bool} {c : UInt8} (h : stop c = true) (rest : Bytes) :
    StopsAt stop (c :: rest) := by
  rintro a ⟨rfl⟩
  exact h

theorem takeWhile_append_of_stop {stop : UInt8 → Bool} {stretch rest : Bytes}
    (hstretch : ∀ c ∈ stretch, stop c = false) (hrest : StopsAt stop rest) :
    (stretch ++ rest).takeWhile (! stop ·) = stretch ∧
      (stretch ++ rest).dropWhile (! stop ·) = rest := by
  have hpass : ∀ c ∈ stretch, (! stop c) = true := by
    intro c hc
    rw [hstretch c hc]
    rfl
  have hend : ∀ c ∈ rest.head?, (! stop c) = false := by
    intro c hc
    rw [hrest c hc]
    rfl
  exact span_append hpass hend

end EarlyBoot.Bytes
