import EarlyBoot.Ascii

/-!
Bytes and text. A text is sent as UTF-8; bytes that came from elsewhere are shown as text only if
they are UTF-8, and a screen shows one character for each byte.
-/

namespace EarlyBoot

/-- The bytes of a buffer, a string or a message. -/
abbrev Bytes := List UInt8

namespace Bytes

/-- The UTF-8 form of a text. -/
def ofText (s : String) : Bytes :=
  s.toList.flatMap String.utf8EncodeChar

/-- The text that these bytes spell, if they are UTF-8. -/
def text? (bs : Bytes) : Option String :=
  String.fromUTF8? ⟨bs.toArray⟩

/-- The text for a report, with a remark in place of bytes that are not UTF-8. -/
def text (bs : Bytes) : String :=
  bs.text?.getD "<not utf-8>"

/-- One character for each byte, the one with its number. -/
def glyphs (bs : Bytes) : String :=
  String.ofList (bs.map fun b => Char.ofNat b.toNat)

end Bytes

end EarlyBoot
