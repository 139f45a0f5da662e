import EarlyBoot.Terminated.Basic

/-!
Memory as the program reads it: a byte at every virtual address. Words are stored with their
lowest byte first, at any address.
-/

namespace EarlyBoot

/-- The number that bytes stand for, the lowest byte first. -/
def littleEndian : Bytes → Nat
  | [] => 0
  | b :: rest => b.toNat + 256 * littleEndian rest

structure Memory where
  byteAt : Nat → UInt8

/-- A place in memory: some bytes from an address on. -/
structure MemoryBlock where
  start : Nat
  length : Nat
deriving DecidableEq

/-- A block without bytes, which is nowhere. -/
def MemoryBlock.empty : MemoryBlock :=
  ⟨0, 0⟩

namespace Memory

/-- The `n` bytes from an address on. -/
def bytes (m : Memory) (address n : Nat) : Bytes :=
  (List.range n).map fun i => m.byteAt (address + i)

def word16 (m : Memory) (address : Nat) : UInt16 :=
  UInt16.ofNat (littleEndian (m.bytes address 2))

def word32 (m : Memory) (address : Nat) : UInt32 :=
  UInt32.ofNat (littleEndian (m.bytes address 4))

def word64 (m : Memory) (address : Nat) : UInt64 :=
  UInt64.ofNat (littleEndian (m.bytes address 8))

/-- The longest string that is read from memory. -/
def stringLimit : Nat := 4096

/-- The bytes from an address up to the first zero byte, and at most `limit` of them. -/
def scan (m : Memory) (address : Nat) : Nat → Bytes
  | 0 => []
  | limit + 1 =>
    let b := m.byteAt address
    if b = 0 then [] else b :: m.scan (address + 1) limit

/-- The terminated string at an address, cut off where it is too long. -/
def stringAt (m : Memory) (address : Nat) : Bytes :=
  m.scan address stringLimit

/-- Where the string at an address lies. Its length is fixed here: a terminator that comes or goes
later changes the bytes of the block, not their number. -/
def stringBlock (m : Memory) (address : Nat) : MemoryBlock :=
  ⟨address, (m.stringAt address).length⟩

def contents (m : Memory) (block : MemoryBlock) : Bytes :=
  m.bytes block.start block.length

theorem bytes_succ (m : Memory) (address n : Nat) :
    m.bytes address (n + 1) = m.byteAt address :: m.bytes (address + 1) n := by
  simp only [bytes, List.range_succ_eq_map, List.map_cons, List.map_map, Nat.add_zero]
  congr 1
  apply List.map_congr_left
  intro i _
  simp only [Function.comp_apply, Nat.succ_eq_add_one]
  congr 1
  omega

theorem bytes_length_scan (m : Memory) (address limit : Nat) :
    m.bytes address (m.scan address limit).length = m.scan address limit := by
  induction limit generalizing address with
  | zero => rfl
  | succ limit ih =>
    simp only [scan]
    split
    · rfl
    · rw [List.length_cons, bytes_succ, ih]

theorem contents_stringBlock (m : Memory) (address : Nat) :
    m.contents (m.stringBlock address) = m.stringAt address :=
  m.bytes_length_scan address stringLimit

end Memory

end EarlyBoot
