import EarlyBoot.Address.Basic

/-!
Direct mappings. A block of physical memory appears at one virtual address, byte after byte. Its
end may lie beyond the last physical address: the block is an interval of numbers, and nothing
wraps around.
-/

namespace EarlyBoot

/-- A block of `size` bytes of physical memory and where it appears. -/
structure DirectMapping where
  virtualBase : Address .virtual
  physicalBase : Address .physical
  size : Nat
deriving DecidableEq

namespace DirectMapping

/-- The mapping before paging is set up: the first 4 GiB appear where they are. -/
def identity : DirectMapping where
  virtualBase := ⟨0, by decide⟩
  physicalBase := ⟨0, by decide⟩
  size := UInt32.size

def contains (m : DirectMapping) (p : Address .physical) : Bool :=
  m.physicalBase.toNat ≤ p.toNat && p.toNat - m.physicalBase.toNat < m.size

def toVirtual (m : DirectMapping) (p : Address .physical) : Except Fault (Address .virtual) :=
  if m.contains p then m.virtualBase.add (p.toNat - m.physicalBase.toNat)
  else .error (.unmapped p.toNat)

end DirectMapping

end EarlyBoot
