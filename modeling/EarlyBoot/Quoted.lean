import EarlyBoot.Numeral.Basic
import EarlyBoot.Unicode

/-!
Texts in quotes for reports. Quotes, backslashes and all characters that would not be seen by
themselves are escaped, so a quoted text stays on its line and ends where its closing quote stands.
-/

namespace EarlyBoot.Quoted

/-- Whether a character can be seen where it stands and by itself. -/
def isVisible (c : Char) : Bool :=
  !Unicode.extendsGrapheme c && Unicode.isPrintable c

/-- The number of a character in braces, in hexadecimal. -/
def numbered (c : Char) : List Char :=
  ['\\', 'u', '\x7b'] ++ (Bytes.glyphs (Numeral.digits .hexadecimal c.toNat)).toList ++ ['\x7d']

/-- The form of a character inside quotes. -/
def escape (c : Char) : List Char :=
  if c = '"' ∨ c = '\\' then ['\\', c]
  else if c = '\n' then ['\\', 'n']
  else if c = '\r' then ['\\', 'r']
  else if c = '\t' then ['\\', 't']
  else if c.toNat = 0 then ['\\', '0']
  else if isVisible c then [c]
  else numbered c

/-- The text in quotes. -/
def quote (s : String) : String :=
  String.ofList (['"'] ++ s.toList.flatMap escape ++ ['"'])

end EarlyBoot.Quoted
