import EarlyBoot.Word
import EarlyBoot.Numeral.Basic

/-!
Addresses. A physical address and a virtual one never mix: each kind of address is a type of its
own. The loader hands over physical addresses of 32 bits; the tables it points to may name
memory above 4 GiB.
-/

namespace EarlyBoot

/-- What an address counts in. -/
inductive AddressSpace where
  /-- Physical memory below 4 GiB, as the loader names it. -/
  | loader
  | physical
  /-- What the program itself reads and writes, as the current mapping arranges it. -/
  | virtual
deriving DecidableEq

namespace AddressSpace

def bits : AddressSpace → Nat
  | loader => 32
  | physical => 64
  | virtual => 64

def label : AddressSpace → String
  | loader => "PHYS"
  | physical => "PHYS"
  | virtual => "VIRT"

/-- The least number of digits an address of this space is shown with. -/
def digits : AddressSpace → Nat
  | loader => 8
  | physical => 16
  | virtual => 8

end AddressSpace

structure Address (space : AddressSpace) where
  toNat : Nat
  isLt : toNat < Nat.pow 2 space.bits
deriving DecidableEq

namespace Address

variable {space : AddressSpace}

def ofNat? (n : Nat) : Option (Address space) :=
  if h : n < Nat.pow 2 space.bits then some ⟨n, h⟩ else none

/-- The address `n` bytes further on, if there is one. -/
def add (a : Address space) (n : Nat) : Except Fault (Address space) :=
  if h : a.toNat + n < Nat.pow 2 space.bits then .ok ⟨a.toNat + n, h⟩ else .error .overflow

def ofWord (w : UInt32) : Address .loader :=
  ⟨w.toNat, w.toNat_lt⟩

def ofLongWord (w : UInt64) : Address .physical :=
  ⟨w.toNat, w.toNat_lt⟩

/-- An address of the loader among all physical addresses. -/
def extend (a : Address .loader) : Address .physical :=
  ⟨a.toNat, Nat.lt_trans a.isLt (by decide)⟩

/-- The address as it is shown, such as `PHYS_0x000b8000`. -/
def text (a : Address space) : String :=
  space.label ++ "_" ++ Bytes.glyphs (Numeral.prefixedHex space.digits a.toNat)

end Address

end EarlyBoot
