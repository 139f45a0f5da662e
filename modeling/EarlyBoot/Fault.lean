/-!
The ways in which a computation of the boot code stops short. A fault is a value: whoever meets
one decides what is shown of the work done before it.
-/

namespace EarlyBoot

inductive Fault where
  /-- A sum or product left the machine word. -/
  | overflow
  /-- An index or a count reached past the end of a buffer. -/
  | outOfBounds
  /-- A block to be moved does not lie inside its buffer. -/
  | regionOutOfBounds
  | alignmentNotPowerOfTwo
  /-- There is no cell at this offset of the screen. -/
  | offScreen (offset : Nat)
  /-- No mapping covers this physical address. -/
  | unmapped (address : Nat)
deriving DecidableEq

end EarlyBoot
