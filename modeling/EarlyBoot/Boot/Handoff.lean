import EarlyBoot.Address.Basic

/-!
What the loader leaves in two registers when it starts the kernel: a magic number and the address
of the boot information. The address means something only if the number is right.
-/

namespace EarlyBoot

structure Handoff where
  magic : UInt32
  infoAddress : Address .loader
deriving DecidableEq

inductive HandoffError where
  | invalidMagic (actual : UInt32)
deriving DecidableEq

namespace Handoff

/-- The number that every compliant loader leaves. -/
def loaderMagic : UInt32 := 0x2BADB002

/-- A magic number in a log: `0x` and eight uppercase digits. -/
def magicText (magic : UInt32) : String :=
  Bytes.glyphs (Numeral.prefixedUpperHex 8 magic.toNat)

def verify (h : Handoff) : Except HandoffError (Address .loader) :=
  if h.magic = loaderMagic then .ok h.infoAddress else .error (.invalidMagic h.magic)

end Handoff

def HandoffError.message : HandoffError → String
  | .invalidMagic actual =>
    "invalid multiboot magic: expected " ++ Handoff.magicText Handoff.loaderMagic
      ++ ", got " ++ Handoff.magicText actual

end EarlyBoot
