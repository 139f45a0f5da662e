import EarlyBoot.Word
import EarlyBoot.Bytes

/-!
Blocks of bytes inside buffers of fixed length. Each operation names its count, and a count that
a buffer does not have is a fault before any byte is touched.
-/

namespace EarlyBoot.Region

def fill (buffer : Bytes) (value : UInt8) : Bytes :=
  buffer.map fun _ => value

def store (buffer : Bytes) (index : Nat) (value : UInt8) : Except Fault Bytes :=
  if index < buffer.length then .ok (buffer.set index value) else .error .outOfBounds

/-- Copy the first `n` bytes of `source` to the start of `target`. -/
def copy (target source : Bytes) (n : Nat) : Except Fault Bytes :=
  if n ≤ target.length ∧ n ≤ source.length then .ok (source.take n ++ target.drop n)
  else .error .outOfBounds

/-- The buffer after the byte at `source` was copied to `target`. -/
def copyByte (buffer : Bytes) (target source : Nat) : Bytes :=
  buffer.set target (buffer.getD source 0)

/-- The order in which the bytes of a block are moved: a block that moves down is moved from its
first byte, any other one from its last, so no byte is overwritten before it was read. -/
def moveOrder (target source n : Nat) : List Nat :=
  if target < source then List.range n else (List.range n).reverse

/-- Move `n` bytes inside a buffer. The end of the source is checked before that of the target,
and each end must be a word before it can be compared with the length. -/
def move (buffer : Bytes) (target source n : Nat) : Except Fault Bytes := do
  let sourceEnd ← Word.add Word.bits source n
  if buffer.length < sourceEnd then throw .regionOutOfBounds
  let targetEnd ← Word.add Word.bits target n
  if buffer.length < targetEnd then throw .regionOutOfBounds
  return (moveOrder target source n).foldl
    (fun bytes i => copyByte bytes (target + i) (source + i)) buffer

/-- The difference of the first two of `n` bytes that differ. -/
def compare (a b : Bytes) (n : Nat) : Except Fault Int :=
  if n ≤ a.length ∧ n ≤ b.length then
    .ok ((((a.take n).zip (b.take n)).find? fun (x, y) => x ≠ y).elim 0
      fun (x, y) => x.toNat - y.toNat)
  else .error .outOfBounds

/-- The index of the first `value` among `n` bytes. -/
def find? (buffer : Bytes) (value : UInt8) (n : Nat) : Except Fault (Option Nat) :=
  if n ≤ buffer.length then .ok ((buffer.take n).idxOf? value) else .error .outOfBounds

end EarlyBoot.Region
