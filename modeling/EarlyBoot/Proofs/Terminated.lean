import Mathlib.Data.List.TakeWhile
import EarlyBoot.Terminated.Basic

/-!
The content of a buffer, with and without a terminator in it.
-/

namespace EarlyBoot.Terminated

private theorem ne_zero_of_notMem {s : Bytes} (h : (0 : UInt8) ∉ s) :
    ∀ c ∈ s, decide (c ≠ 0) = true := by
  intro c hc
  exact decide_eq_true fun heq => h (heq ▸ hc)

theorem content_eq (s : Bytes) :
    content s = if s.headD 0 = 0 then [] else s.headD 0 :: content s.tail := by
  cases s with
  | nil => rfl
  | cons x s => by_cases hx : x = 0 <;> simp [content, hx]

theorem headD_content (s : Bytes) : (content s).headD 0 = s.headD 0 := by
  rw [content_eq]
  split
  · rename_i hend
    exact hend.symm
  · rfl

theorem headD_ne_zero {s : Bytes} (h : 0 < length s) : s.headD 0 ≠ 0 := by
  intro hend
  rw [length, content_eq, if_pos hend] at h
  exact absurd h (Nat.lt_irrefl 0)

theorem content_cons {x : UInt8} (hx : x ≠ 0) (s : Bytes) :
    content (x :: s) = x :: content s := by
  rw [content_eq]
  exact if_neg hx

theorem length_cons {x : UInt8} (hx : x ≠ 0) (s : Bytes) : length (x :: s) = length s + 1 := by
  rw [length, content_cons hx]
  rfl

theorem zero_notMem_content (s : Bytes) : (0 : UInt8) ∉ content s := by
  intro hmem
  have hne := List.mem_takeWhile_imp hmem
  simp at hne

theorem content_eq_self {s : Bytes} (h : (0 : UInt8) ∉ s) : content s = s :=
  List.takeWhile_eq_self_iff.mpr (ne_zero_of_notMem h)

theorem content_append {s : Bytes} (h : (0 : UInt8) ∉ s) (behind : Bytes) :
    content (s ++ behind) = s ++ content behind :=
  List.takeWhile_append_of_pos (ne_zero_of_notMem h)

theorem content_append_zero {s : Bytes} (h : (0 : UInt8) ∉ s) (behind : Bytes) :
    content (s ++ 0 :: behind) = s := by
  rw [content_append h]
  simp [content]

theorem length_le (s : Bytes) : length s ≤ s.length :=
  (List.takeWhile_prefix _).length_le

theorem take_length (s : Bytes) : s.take (length s) = content s :=
  (List.prefix_iff_eq_take.mp (List.takeWhile_prefix _)).symm

theorem content_append_drop (s : Bytes) : content s ++ s.drop (length s) = s := by
  rw [← take_length, List.take_append_drop]

end EarlyBoot.Terminated
