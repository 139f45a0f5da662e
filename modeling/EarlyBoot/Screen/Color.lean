/-!
The sixteen colors of the text screen, and attributes: a pair of colors in one byte, the
foreground in the low four bits and the background in the high four.
-/

namespace EarlyBoot

inductive Color where
  | black
  | blue
  | green
  | cyan
  | red
  | magenta
  | brown
  | lightGray
  | darkGray
  | lightBlue
  | lightGreen
  | lightCyan
  | lightRed
  | lightMagenta
  | yellow
  | white
deriving DecidableEq

namespace Color

/-- The number of a color in an attribute. -/
def code : Color → UInt8
  | black => 0
  | blue => 1
  | green => 2
  | cyan => 3
  | red => 4
  | magenta => 5
  | brown => 6
  | lightGray => 7
  | darkGray => 8
  | lightBlue => 9
  | lightGreen => 10
  | lightCyan => 11
  | lightRed => 12
  | lightMagenta => 13
  | yellow => 14
  | white => 15

def name : Color → String
  | black => "Black"
  | blue => "Blue"
  | green => "Green"
  | cyan => "Cyan"
  | red => "Red"
  | magenta => "Magenta"
  | brown => "Brown"
  | lightGray => "LightGray"
  | darkGray => "DarkGray"
  | lightBlue => "LightBlue"
  | lightGreen => "LightGreen"
  | lightCyan => "LightCyan"
  | lightRed => "LightRed"
  | lightMagenta => "LightMagenta"
  | yellow => "Yellow"
  | white => "White"

/-- The color with a number; numbers above 15 name none. -/
def ofCode? (code : UInt8) : Option Color :=
  match code.toNat with
  | 0 => some black
  | 1 => some blue
  | 2 => some green
  | 3 => some cyan
  | 4 => some red
  | 5 => some magenta
  | 6 => some brown
  | 7 => some lightGray
  | 8 => some darkGray
  | 9 => some lightBlue
  | 10 => some lightGreen
  | 11 => some lightCyan
  | 12 => some lightRed
  | 13 => some lightMagenta
  | 14 => some yellow
  | 15 => some white
  | _ => none

/-- The color with the number in the low four bits of a byte. -/
def ofNibble (byte : UInt8) : Color :=
  (ofCode? (byte &&& 0x0F)).getD white

end Color

/-- The colors of a cell. -/
structure Attribute where
  byte : UInt8
deriving DecidableEq

namespace Attribute

def of (foreground background : Color) : Attribute :=
  ⟨foreground.code ||| (background.code <<< 4)⟩

def foreground (a : Attribute) : Color :=
  .ofNibble a.byte

def background (a : Attribute) : Color :=
  .ofNibble (a.byte >>> 4)

/-- Light gray on black, as the firmware leaves the screen. -/
def default : Attribute :=
  .of .lightGray .black

end Attribute

end EarlyBoot
