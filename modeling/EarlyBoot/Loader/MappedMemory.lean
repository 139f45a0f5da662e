import EarlyBoot.Address.DirectMapping
import EarlyBoot.Loader.Memory

/-!
Memory together with the mapping by which the loader's addresses are found in it.
-/

namespace EarlyBoot

/-- Memory as the program reads it, and where physical memory appears in it. -/
structure MappedMemory where
  memory : Memory
  mapping : DirectMapping

namespace MappedMemory

def locate (m : MappedMemory) (address : Address .loader) : Except Fault (Address .virtual) :=
  m.mapping.toVirtual address.extend

/-- Where the string lies that a word of the loader points to. A word of zero stands for an empty
string, whatever lies at that address. -/
def stringBlock (m : MappedMemory) (pointer : UInt32) : Except Fault MemoryBlock :=
  if pointer = 0 then .ok .empty
  else do return m.memory.stringBlock (← m.locate (.ofWord pointer)).toNat

def string (m : MappedMemory) (pointer : UInt32) : Except Fault Bytes :=
  m.memory.contents <$> m.stringBlock pointer

end MappedMemory

end EarlyBoot
