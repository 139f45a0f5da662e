import EarlyBoot.Address.Basic
import EarlyBoot.Loader.Memory
import EarlyBoot.Screen.Grid

/-!
The screen as a part of memory. A cell is two bytes, the character before the attribute, and the
cells follow one another, so what is written to the screen can be read back as bytes
(`readAt_withScreen`).
-/

namespace EarlyBoot

namespace Grid

/-- Where the screen is in physical memory. -/
def physicalBase : Address .physical := ⟨0xB8000, by decide⟩

/-- The byte at a distance from the start of the screen. -/
def byteAt? (g : Grid) (i : Nat) : Option UInt8 :=
  g.cells[i / 2]?.map fun c => if i % 2 = 0 then c.character else c.colors.byte

/-- The screen that the bytes from an address on show. -/
def readAt (m : Memory) (address : Nat) : Grid :=
  ⟨Vector.ofFn fun i => ⟨m.word16 (address + 2 * i)⟩⟩

end Grid

/-- Memory with the screen at an address, in front of whatever else is there. -/
def Memory.withScreen (m : Memory) (address : Nat) (g : Grid) : Memory where
  byteAt a := if address ≤ a then (g.byteAt? (a - address)).getD (m.byteAt a) else m.byteAt a

theorem Cell.word_of_bytes (c : Cell) :
    UInt16.ofNat (littleEndian [c.character, c.colors.byte]) = c.word := by
  have and255 (n : Nat) : n &&& 255 = n % 256 := Nat.and_two_pow_sub_one_eq_mod n 8
  apply UInt16.toNat_inj.mp
  have := c.word.toNat_lt
  simp [littleEndian, character, colors, Nat.shiftRight_eq_div_pow, and255]
  omega

theorem Grid.byteAt?_of_lt (g : Grid) {i : Nat} (h : i < Grid.size) :
    g.byteAt? (2 * i) = some g.cells[i].character
      ∧ g.byteAt? (2 * i + 1) = some g.cells[i].colors.byte := by
  have hdiv : (2 * i + 1) / 2 = i := by omega
  have hmod : (2 * i + 1) % 2 = 1 := by omega
  simp [Grid.byteAt?, h, hdiv, hmod]

/-- What memory shows of a screen is that screen. -/
theorem Memory.readAt_withScreen (m : Memory) (address : Nat) (g : Grid) :
    Grid.readAt (m.withScreen address g) address = g := by
  obtain ⟨cells⟩ := g
  simp only [Grid.readAt, Grid.mk.injEq]
  ext i hi
  obtain ⟨hcharacter, hcolors⟩ := Grid.byteAt?_of_lt ⟨cells⟩ hi
  have hbytes : (m.withScreen address ⟨cells⟩).bytes (address + 2 * i) 2
      = [cells[i].character, cells[i].colors.byte] := by
    simp [Memory.bytes, List.range_succ, Memory.withScreen, hcharacter, hcolors, Nat.add_assoc]
  simp only [Vector.getElem_ofFn, Memory.word16, hbytes, Cell.word_of_bytes]

end EarlyBoot
