import EarlyBoot.Word
import EarlyBoot.Screen.Color

/-!
The text screen: 25 rows of 80 cells, row after row. A cell is a word of 16 bits with the
character in its low byte and the attribute in its high byte.
-/

namespace EarlyBoot

structure Cell where
  word : UInt16
deriving DecidableEq

namespace Cell

def of (character : UInt8) (colors : Attribute) : Cell :=
  ⟨character.toUInt16 ||| (colors.byte.toUInt16 <<< 8)⟩

def character (c : Cell) : UInt8 :=
  (c.word &&& 0xFF).toUInt8

def colors (c : Cell) : Attribute :=
  ⟨(c.word >>> 8).toUInt8⟩

def blank (colors : Attribute) : Cell :=
  .of ' '.toUInt8 colors

end Cell

namespace Grid

abbrev width : Nat := 80

abbrev height : Nat := 25

abbrev size : Nat := width * height

end Grid

structure Grid where
  cells : Vector Cell Grid.size
deriving DecidableEq

namespace Grid

/-- A grid that shows the same cell everywhere. -/
def filled (c : Cell) : Grid :=
  ⟨Vector.replicate size c⟩

def read (g : Grid) (offset : Nat) : Except Fault Cell :=
  if h : offset < size then .ok g.cells[offset] else .error (.offScreen offset)

def write (g : Grid) (offset : Nat) (c : Cell) : Except Fault Grid :=
  if h : offset < size then .ok ⟨g.cells.set offset c⟩ else .error (.offScreen offset)

/-- The offset of a position. Only the result has to be a word: a column past the end of its row
names a cell further down. -/
def offsetAt (row column : Nat) : Except Fault Nat :=
  Word.fit Word.bits (row * width + column)

end Grid

end EarlyBoot
