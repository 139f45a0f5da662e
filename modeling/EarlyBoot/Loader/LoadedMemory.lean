import EarlyBoot.Loader.MappedMemory
import EarlyBoot.Screen.InMemory

/-!
Memory as the loader leaves it, with the loader's report somewhere in it. The screen may be a
part of this memory: then a report that reaches into the screen changes with every output, and a
read gives what is there at that moment.
-/

namespace EarlyBoot

/-- Memory around a program that writes to a screen. -/
structure LoadedMemory where
  memory : Memory
  mapping : DirectMapping
  /-- Where the screen appears, unless it lies apart from this memory. -/
  screen : Option (Address .virtual) := none

structure LoaderReport where
  memory : LoadedMemory
  record : Address .virtual

namespace LoadedMemory

/-- What can be read while the screen is `g`. -/
def showing (m : LoadedMemory) (g : Grid) : MappedMemory where
  memory :=
    match m.screen with
    | none => m.memory
    | some address => m.memory.withScreen address.toNat g
  mapping := m.mapping

/-- The report whose record is at an address of the loader. -/
def report (m : LoadedMemory) (address : Address .loader) : Except Fault LoaderReport := do
  return ⟨m, ← m.mapping.toVirtual address.extend⟩

end LoadedMemory

end EarlyBoot
