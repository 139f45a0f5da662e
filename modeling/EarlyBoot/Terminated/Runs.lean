import EarlyBoot.Terminated.Basic

/-!
The pieces of a string between delimiters: its maximal non-empty runs of other bytes, in order.
-/

namespace EarlyBoot.Terminated

/-- The next piece and what follows it, if any byte is left that is no delimiter. -/
def nextRun? (delimiter : UInt8 → Bool) (s : Bytes) : Option (Bytes × Bytes) :=
  match s.dropWhile delimiter with
  | [] => none
  | b :: rest =>
    some (b :: rest.takeWhile (! delimiter ·), rest.dropWhile (! delimiter ·))

theorem length_lt_of_nextRun? {delimiter : UInt8 → Bool} {s run rest : Bytes}
    (h : nextRun? delimiter s = some (run, rest)) : rest.length < s.length := by
  unfold nextRun? at h
  split at h
  · simp at h
  · rename_i b tail hdrop
    simp only [Option.some.injEq, Prod.mk.injEq] at h
    obtain ⟨_, rfl⟩ := h
    have hsuffix := (List.dropWhile_suffix delimiter (l := s)).length_le
    have htail := (List.dropWhile_suffix (! delimiter ·) (l := tail)).length_le
    rw [hdrop, List.length_cons] at hsuffix
    omega

def runs (delimiter : UInt8 → Bool) (s : Bytes) : List Bytes :=
  match _h : nextRun? delimiter s with
  | none => []
  | some (run, rest) => run :: runs delimiter rest
termination_by s.length
decreasing_by exact length_lt_of_nextRun? _h

/-- The pieces of the string in `s` between the bytes of the string in `delimiters`. -/
def tokens (s delimiters : Bytes) : List Bytes :=
  runs (content delimiters).contains (content s)

end EarlyBoot.Terminated
