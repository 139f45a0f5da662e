import EarlyBoot.Region
import EarlyBoot.Terminated.Basic

/-!
Building strings in a buffer of fixed length. What does not fit is a fault, and bytes behind the
string and its terminator keep their values.
-/

namespace EarlyBoot.Terminated

/-- Put the string in `source` and a terminator at the start of `target`. Also gives the length
of the string. -/
def copy (target source : Bytes) : Except Fault (Nat × Bytes) := do
  let n := length source
  let copied ← Region.copy target source n
  return (n, ← Region.store copied n 0)

/-- Set the first `n` bytes of `target` to the string in `source`, cut off or filled up with
zeros. A string of `n` bytes or more leaves no terminator. -/
def copyBounded (target source : Bytes) (n : Nat) : Except Fault Bytes := do
  let k := min (length source) n
  let copied ← Region.copy target source k
  if copied.length < n then throw .outOfBounds
  return copied.take k ++ Region.fill ((copied.take n).drop k) 0 ++ copied.drop n

/-- Append the string in `source` to the one in `target`. Also gives the new length. -/
def concat (target source : Bytes) : Except Fault (Nat × Bytes) := do
  let start := length target
  let (n, rest) ← copy (target.drop start) source
  return (start + n, target.take start ++ rest)

/-- Append at most `n` bytes of the string in `source`, and a terminator. -/
def concatBounded (target source : Bytes) (n : Nat) : Except Fault (Nat × Bytes) := do
  let start := length target
  let k := min (length source) n
  let rest ← Region.copy (target.drop start) source k
  return (start + k, ← Region.store (target.take start ++ rest) (start + k) 0)

/-- Turn the string around and leave the bytes behind it alone. -/
def reverse (buffer : Bytes) : Bytes :=
  (content buffer).reverse ++ buffer.drop (length buffer)

end EarlyBoot.Terminated
