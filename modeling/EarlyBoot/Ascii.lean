/-!
The ASCII classes of a byte, its two cases, and its value as a digit. A byte above 126 belongs
to no class and is its own upper and lower case.
-/

namespace EarlyBoot.Ascii

def isUpper (c : UInt8) : Bool :=
  'A'.toUInt8 ≤ c && c ≤ 'Z'.toUInt8

def isLower (c : UInt8) : Bool :=
  'a'.toUInt8 ≤ c && c ≤ 'z'.toUInt8

def isAlpha (c : UInt8) : Bool :=
  isLower c || isUpper c

def isDigit (c : UInt8) : Bool :=
  '0'.toUInt8 ≤ c && c ≤ '9'.toUInt8

def isAlnum (c : UInt8) : Bool :=
  isAlpha c || isDigit c

/-- Tab, line feed, vertical tab, form feed, carriage return and the space itself. -/
def isSpace (c : UInt8) : Bool :=
  c == ' '.toUInt8 || (9 ≤ c && c ≤ 13)

/-- The space and everything with a glyph: 32 to 126. -/
def isPrintable (c : UInt8) : Bool :=
  32 ≤ c && c ≤ 126

def toLower (c : UInt8) : UInt8 :=
  if isUpper c then c + 32 else c

def toUpper (c : UInt8) : UInt8 :=
  if isLower c then c - 32 else c

/-- The value of a digit in bases up to 36; letters count from ten in either case. -/
def digitValue? (c : UInt8) : Option Nat :=
  if isDigit c then some (c.toNat - '0'.toNat)
  else if isAlpha c then some ((toLower c).toNat - 'a'.toNat + 10)
  else none

end EarlyBoot.Ascii
