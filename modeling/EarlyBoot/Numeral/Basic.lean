import EarlyBoot.Bytes

/-!
Numbers in positional notation. Digits above nine are lowercase letters, so a base lies between
2 and 36. A number is written without leading zeros, and zero as one digit.
-/

namespace EarlyBoot

/-- A base that the ten digits and the letters suffice for. -/
structure Base where
  value : Nat
  two_le : 2 ≤ value
  le_thirtySix : value ≤ 36

namespace Base

def ofNat? (n : Nat) : Option Base :=
  if h : 2 ≤ n ∧ n ≤ 36 then some ⟨n, h.1, h.2⟩ else none

def decimal : Base := ⟨10, by decide, by decide⟩

def hexadecimal : Base := ⟨16, by decide, by decide⟩

end Base

namespace Numeral

def digitByte (d : Nat) : UInt8 :=
  UInt8.ofNat (if d < 10 then '0'.toNat + d else 'a'.toNat + (d - 10))

/-- The digits of `n`, the last one first. -/
def lowDigits (base : Base) (n : Nat) : List Nat :=
  if n < base.value then [n] else n % base.value :: lowDigits base (n / base.value)
termination_by n
decreasing_by
  have := base.two_le
  exact Nat.div_lt_self (by omega) (by omega)

def digits (base : Base) (n : Nat) : Bytes :=
  (lowDigits base n).reverse.map digitByte

/-- The digits of `n`, filled up with zeros on the left to at least `width` of them. -/
def padded (base : Base) (width n : Nat) : Bytes :=
  (digits base n).leftpad width (digitByte 0)

/-- `0x` and at least `width` hexadecimal digits. -/
def prefixedHex (width n : Nat) : Bytes :=
  Bytes.ofText "0x" ++ padded .hexadecimal width n

/-- `0x` and at least `width` hexadecimal digits, with uppercase letters. -/
def prefixedUpperHex (width n : Nat) : Bytes :=
  Bytes.ofText "0x" ++ (padded .hexadecimal width n).map Ascii.toUpper

def decimalText (n : Nat) : String :=
  Bytes.glyphs (digits .decimal n)

/-- The room for a numeral: 32 binary digits, with space for a sign. -/
def capacity : Nat := 34

/-- An unsigned word in any base, and no bytes at all where `base` is none. -/
def unsigned (value : UInt32) (base : Nat) : Bytes :=
  match Base.ofNat? base with
  | none => []
  | some b => digits b value.toNat

/-- A signed word. Only a decimal has a sign; in another base a negative number is written as
the word that represents it. -/
def signed (value : Int32) (base : Nat) : Bytes :=
  match Base.ofNat? base with
  | none => []
  | some b =>
    if value < 0 ∧ base = 10 then '-'.toUInt8 :: digits b value.toInt.natAbs
    else digits b value.toUInt32.toNat

/-- The four bits of `value` that are worth `16 ^ i`. -/
def nibble (value : UInt32) (i : Nat) : Nat :=
  value.toNat >>> (4 * i) &&& 0xF

/-- `0x` and one digit for each of the eight nibbles of a word. -/
def wordHex (value : UInt32) (uppercase : Bool) : Bytes :=
  let digit i :=
    let byte := digitByte (nibble value i)
    if uppercase then Ascii.toUpper byte else byte
  Bytes.ofText "0x" ++ [7, 6, 5, 4, 3, 2, 1, 0].map digit

end Numeral

end EarlyBoot
