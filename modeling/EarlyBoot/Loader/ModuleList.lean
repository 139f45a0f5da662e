import EarlyBoot.Loader.MappedMemory

/-!
The module list: entries of four words for the files that the loader placed in memory. A module
names its command line by address, and an address of zero stands for an empty one.
-/

namespace EarlyBoot

/-- A file in physical memory and the command line that came with it. -/
structure BootModule where
  start : Address .loader
  stop : Address .loader
  commandLine : Bytes
deriving DecidableEq

namespace BootModule

/-- The bytes of the module; none if it ends before it starts. -/
def length (m : BootModule) : Nat :=
  m.stop.toNat - m.start.toNat

def isEmpty (m : BootModule) : Bool :=
  m.length == 0

end BootModule

structure ModuleList where
  position : Address .virtual
  remaining : Nat
deriving DecidableEq

namespace ModuleList

/-- The bytes of an entry. The last of its four words is not used. -/
def entrySize : Nat := 16

/-- How many modules are left: at least so many, and at most. -/
def sizeHint (list : ModuleList) : Nat × Option Nat :=
  (list.remaining, some list.remaining)

/-- The first of the remaining modules, and the list after it. -/
def next (list : ModuleList) (m : MappedMemory) :
    Except Fault (Option (BootModule × ModuleList)) := do
  if list.remaining = 0 then return none
  let entry := list.position.toNat
  let position ← list.position.add entrySize
  let commandLine ← m.string (m.memory.word32 (entry + 8))
  let first : BootModule :=
    { start := .ofWord (m.memory.word32 entry)
      stop := .ofWord (m.memory.word32 (entry + 4))
      commandLine := commandLine }
  return some (first, ⟨position, list.remaining - 1⟩)

end ModuleList

end EarlyBoot
