/-!
The header by which a loader recognizes a kernel image. Its three words add up to zero.
-/

namespace EarlyBoot

structure ImageHeader where
  magic : UInt32
  flags : UInt32
  checksum : UInt32
deriving DecidableEq

namespace ImageHeader

/-- The first word of every header. -/
def signature : UInt32 := 0x1BADB002

def new (flags : UInt32) : ImageHeader where
  magic := signature
  flags := flags
  checksum := 0 - signature - flags

def isValid (h : ImageHeader) : Bool :=
  h.magic == signature && h.magic + h.flags + h.checksum == 0

end ImageHeader

end EarlyBoot
