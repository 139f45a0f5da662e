import EarlyBoot.Bytes

/-!
Terminated strings. A buffer holds the bytes before its first zero byte, or all of its bytes if
none is zero, so strings with and without a terminator are read alike. A byte past the content
counts as zero in a comparison.
-/

namespace EarlyBoot.Terminated

def content (s : Bytes) : Bytes :=
  s.takeWhile (· ≠ 0)

def length (s : Bytes) : Nat :=
  (content s).length

/-- The difference of the first two bytes that differ, zero for equal strings. -/
def compare : Bytes → Bytes → Int
  | [], b => - (b.headD 0).toNat
  | x :: _, [] => x.toNat
  | x :: a, y :: b => if x ≠ y ∨ x = 0 then x.toNat - y.toNat else compare a b

/-- The comparison of no more than `n` bytes: when they run out, the strings are equal. -/
def compareBounded : Bytes → Bytes → Nat → Int
  | _, _, 0 => 0
  | a, b, n + 1 =>
    let x := a.headD 0
    let y := b.headD 0
    if x ≠ y ∨ x = 0 then x.toNat - y.toNat else compareBounded a.tail b.tail n

/-- The index of the first `c`. A terminator is found only where the buffer holds one. -/
def find? (s : Bytes) (c : UInt8) : Option Nat :=
  if c = 0 then (if length s < s.length then some (length s) else none)
  else (content s).idxOf? c

/-- The index of the last `c` in a list of bytes. -/
def lastIndex? (c : UInt8) : Bytes → Option Nat
  | [] => none
  | b :: rest =>
    match lastIndex? c rest with
    | some i => some (i + 1)
    | none => if b = c then some 0 else none

/-- The index of the last `c`, with the terminator as in `find?`. -/
def findLast? (s : Bytes) (c : UInt8) : Option Nat :=
  if c = 0 then find? s 0 else lastIndex? c (content s)

/-- The first index at which `needle` starts; an empty one starts at once. -/
def indexOf? (needle : Bytes) : Bytes → Option Nat
  | [] => if needle.isEmpty then some 0 else none
  | b :: rest =>
    if needle.isPrefixOf (b :: rest) then some 0 else (indexOf? needle rest).map (· + 1)

/-- The index at which the string in `needle` starts inside the string in `s`. -/
def findString? (s needle : Bytes) : Option Nat :=
  indexOf? (content needle) (content s)

end EarlyBoot.Terminated
