import EarlyBoot.Numeral.Basic
import EarlyBoot.Terminated.Basic

/-!
Reading a number from the start of a string: white space, at most one sign, and as many digits
of the base as follow. The value is taken modulo `2 ^ 32`, and where there is no digit, or no such
base, it is zero.
-/

namespace EarlyBoot.Numeral

structure Reading where
  negative : Bool
  magnitude : UInt32

namespace Reading

def zero : Reading := ⟨false, 0⟩

def toUnsigned (r : Reading) : UInt32 :=
  if r.negative then - r.magnitude else r.magnitude

def toSigned (r : Reading) : Int32 :=
  if r.negative then - r.magnitude.toInt32 else r.magnitude.toInt32

end Reading

def digitOf? (base : Base) (c : UInt8) : Option Nat :=
  (Ascii.digitValue? c).filter (· < base.value)

/-- Split off a sign; `true` stands for a minus. -/
def splitSign : Bytes → Bool × Bytes
  | [] => (false, [])
  | c :: rest =>
    if c = '-'.toUInt8 then (true, rest)
    else if c = '+'.toUInt8 then (false, rest)
    else (false, c :: rest)

def appendDigit (base : Base) (word : UInt32) (c : UInt8) : UInt32 :=
  word * UInt32.ofNat base.value + UInt32.ofNat ((digitOf? base c).getD 0)

def magnitude (base : Base) (s : Bytes) : UInt32 :=
  (s.takeWhile (digitOf? base · |>.isSome)).foldl (appendDigit base) 0

def read (s : Bytes) (base : Nat) : Reading :=
  match Base.ofNat? base with
  | none => .zero
  | some b =>
    let (negative, rest) := splitSign ((Terminated.content s).dropWhile Ascii.isSpace)
    ⟨negative, magnitude b rest⟩

/-- The unsigned word that the string starts with; a minus negates it modulo `2 ^ 32`. -/
def readUnsigned (s : Bytes) (base : Nat) : UInt32 :=
  (read s base).toUnsigned

def readSigned (s : Bytes) (base : Nat) : Int32 :=
  (read s base).toSigned

end EarlyBoot.Numeral
