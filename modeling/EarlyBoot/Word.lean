import EarlyBoot.Fault

/-!
Checked arithmetic on machine words. A word of `width` bits is a number below `2 ^ width`, and a
result that is not below it is an overflow.
-/

namespace EarlyBoot.Word

/-- The bits of a count, an index or a virtual address. -/
def bits : Nat := 64

/-- The number itself, if it fits into `width` bits. -/
def fit (width n : Nat) : Except Fault Nat :=
  if n < Nat.pow 2 width then .ok n else .error .overflow

def add (width a b : Nat) : Except Fault Nat :=
  fit width (a + b)

/-- The smallest multiple of `alignment` from `n` on. An alignment of zero leaves `n` alone, and
only a power of two is an alignment. -/
def alignUp (width n alignment : Nat) : Except Fault Nat :=
  if alignment = 0 then .ok n
  else
    let mask := alignment - 1
    if alignment &&& mask ≠ 0 then .error .alignmentNotPowerOfTwo
    else add width n ((alignment - (n &&& mask)) &&& mask)

end EarlyBoot.Word
