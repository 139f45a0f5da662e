import EarlyBoot.Numeral.Basic
import EarlyBoot.Screen.Grid
import EarlyBoot.Terminated.Basic

/-!
The console on the text screen. Output starts at a cursor and goes on in the next row after a
line feed or a full row. The rows form a ring: after the last one comes the first again, and
nothing is scrolled or cleared, so the oldest output is overwritten.
-/

namespace EarlyBoot

/-- A screen with a cursor and the attribute of what is written next. -/
structure Console where
  grid : Grid
  row : Nat
  column : Nat
  colors : Attribute
deriving DecidableEq

namespace Console

/-- Every multiple of this is a tab stop. -/
def tabWidth : Nat := 8

/-- Fill the screen with blanks of the current attribute and move the cursor to the top left. -/
def clear (c : Console) : Console :=
  { c with grid := .filled (.blank c.colors), row := 0, column := 0 }

/-- Take over a screen, and clear it. -/
def withColors (grid : Grid) (colors : Attribute) : Console :=
  clear ⟨grid, 0, 0, colors⟩

def new (grid : Grid) : Console :=
  withColors grid .default

def setColors (c : Console) (colors : Attribute) : Console :=
  { c with colors := colors }

def setForeground (c : Console) (color : Color) : Console :=
  c.setColors (.of color c.colors.background)

def setBackground (c : Console) (color : Color) : Console :=
  c.setColors (.of c.colors.foreground color)

/-- Move the cursor, and say whether the position is on the screen. One that is not leaves the
cursor where it is. -/
def moveTo (c : Console) (row column : Nat) : Bool × Console :=
  if Grid.height ≤ row ∨ Grid.width ≤ column then (false, c)
  else (true, { c with row := row, column := column })

/-- The cell that is shown at a position. -/
def cell (c : Console) (row column : Nat) : Except Fault Cell := do
  c.grid.read (← Grid.offsetAt row column)

/-- Move the cursor to the start of the next row. -/
def nextLine (c : Console) : Console :=
  { c with row := (c.row + 1) % Grid.height, column := 0 }

/-- Move the cursor to the next tab stop; past the last one begins the next row. -/
def tab (c : Console) : Except Fault Console := do
  let column ← Word.alignUp Word.bits (c.column + 1) tabWidth
  let moved := { c with column := column }
  return if Grid.width ≤ column then moved.nextLine else moved

/-- Show a byte at the cursor and move the cursor one cell further. -/
def place (c : Console) (byte : UInt8) : Except Fault Console := do
  let grid ← c.grid.write (← Grid.offsetAt c.row c.column) (.of byte c.colors)
  let moved := { c with grid := grid, column := c.column + 1 }
  return if moved.column = Grid.width then moved.nextLine else moved

/-- Write one byte: a line feed, carriage return or tab moves the cursor, and any other byte is
shown. -/
def put (c : Console) (byte : UInt8) : Except Fault Console :=
  if byte = '\n'.toUInt8 then .ok c.nextLine
  else if byte = '\r'.toUInt8 then .ok { c with column := 0 }
  else if byte = '\t'.toUInt8 then c.tab
  else c.place byte

def write (c : Console) (bytes : Bytes) : Except Fault Console :=
  bytes.foldlM put c

/-- Write the string that a buffer holds. -/
def writeString (c : Console) (buffer : Bytes) : Except Fault Console :=
  c.write (Terminated.content buffer)

/-- Write a text. The glyphs of the screen agree with UTF-8 only up to 127, so the bytes of any
other character are dropped. -/
def writeText (c : Console) (s : String) : Except Fault Console :=
  c.write ((Bytes.ofText s).filter (· ≤ 0x7F))

def writeChar (c : Console) (char : Char) : Except Fault Console :=
  c.writeText char.toString

def writeDecimal (c : Console) (value : UInt32) : Except Fault Console :=
  c.write (Numeral.unsigned value 10)

/-- Write a signed number; only a decimal gets a sign. -/
def writeSigned (c : Console) (value : Int32) (base : Nat) : Except Fault Console :=
  c.write (Numeral.signed value base)

/-- Write `0x` and eight uppercase digits. -/
def writeHex (c : Console) (value : UInt32) : Except Fault Console :=
  c.write (Numeral.wordHex value true)

end Console

end EarlyBoot
