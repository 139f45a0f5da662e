import EarlyBoot.Loader.Memory

/-!
The boot information record as it lies in memory: 116 bytes at fixed offsets, without gaps. All
fields are there in every record; the flags word says which of them mean something.
-/

namespace EarlyBoot

/-- Four words on the symbols of the kernel image. Which words they are depends on the flags. -/
structure SymbolWords where
  first : UInt32
  second : UInt32
  third : UInt32
  fourth : UInt32
deriving DecidableEq

structure ColorFields where
  redPosition : UInt8
  redMaskSize : UInt8
  greenPosition : UInt8
  greenMaskSize : UInt8
  bluePosition : UInt8
  blueMaskSize : UInt8
deriving DecidableEq

namespace ColorFields

def bytes (f : ColorFields) : Bytes :=
  [ f.redPosition, f.redMaskSize, f.greenPosition, f.greenMaskSize, f.bluePosition,
    f.blueMaskSize ]

/-- The same six bytes, read as the address of a palette. -/
def paletteAddress (f : ColorFields) : UInt32 :=
  UInt32.ofNat (littleEndian (f.bytes.take 4))

/-- The same six bytes, read as the size of a palette. -/
def paletteSize (f : ColorFields) : UInt16 :=
  UInt16.ofNat (littleEndian (f.bytes.drop 4))

end ColorFields

structure InfoRecord where
  flags : UInt32
  memLower : UInt32
  memUpper : UInt32
  bootDevice : UInt32
  commandLine : UInt32
  modulesCount : UInt32
  modulesAddress : UInt32
  symbols : SymbolWords
  memoryMapLength : UInt32
  memoryMapAddress : UInt32
  drivesLength : UInt32
  drivesAddress : UInt32
  configTable : UInt32
  bootLoaderName : UInt32
  apmTable : UInt32
  vbeControlInfo : UInt32
  vbeModeInfo : UInt32
  vbeMode : UInt16
  vbeInterfaceSegment : UInt16
  vbeInterfaceOffset : UInt16
  vbeInterfaceLength : UInt16
  framebufferAddress : UInt64
  framebufferPitch : UInt32
  framebufferWidth : UInt32
  framebufferHeight : UInt32
  framebufferDepth : UInt8
  framebufferType : UInt8
  colorFields : ColorFields
deriving DecidableEq

namespace InfoRecord

def size : Nat := 116

def readAt (m : Memory) (address : Nat) : InfoRecord where
  flags := m.word32 address
  memLower := m.word32 (address + 4)
  memUpper := m.word32 (address + 8)
  bootDevice := m.word32 (address + 12)
  commandLine := m.word32 (address + 16)
  modulesCount := m.word32 (address + 20)
  modulesAddress := m.word32 (address + 24)
  symbols :=
    { first := m.word32 (address + 28)
      second := m.word32 (address + 32)
      third := m.word32 (address + 36)
      fourth := m.word32 (address + 40) }
  memoryMapLength := m.word32 (address + 44)
  memoryMapAddress := m.word32 (address + 48)
  drivesLength := m.word32 (address + 52)
  drivesAddress := m.word32 (address + 56)
  configTable := m.word32 (address + 60)
  bootLoaderName := m.word32 (address + 64)
  apmTable := m.word32 (address + 68)
  vbeControlInfo := m.word32 (address + 72)
  vbeModeInfo := m.word32 (address + 76)
  vbeMode := m.word16 (address + 80)
  vbeInterfaceSegment := m.word16 (address + 82)
  vbeInterfaceOffset := m.word16 (address + 84)
  vbeInterfaceLength := m.word16 (address + 86)
  framebufferAddress := m.word64 (address + 88)
  framebufferPitch := m.word32 (address + 96)
  framebufferWidth := m.word32 (address + 100)
  framebufferHeight := m.word32 (address + 104)
  framebufferDepth := m.byteAt (address + 108)
  framebufferType := m.byteAt (address + 109)
  colorFields :=
    { redPosition := m.byteAt (address + 110)
      redMaskSize := m.byteAt (address + 111)
      greenPosition := m.byteAt (address + 112)
      greenMaskSize := m.byteAt (address + 113)
      bluePosition := m.byteAt (address + 114)
      blueMaskSize := m.byteAt (address + 115) }

/-- A record with these flags and nothing else in it. -/
def empty (flags : UInt32) : InfoRecord where
  flags := flags
  memLower := 0
  memUpper := 0
  bootDevice := 0
  commandLine := 0
  modulesCount := 0
  modulesAddress := 0
  symbols := ⟨0, 0, 0, 0⟩
  memoryMapLength := 0
  memoryMapAddress := 0
  drivesLength := 0
  drivesAddress := 0
  configTable := 0
  bootLoaderName := 0
  apmTable := 0
  vbeControlInfo := 0
  vbeModeInfo := 0
  vbeMode := 0
  vbeInterfaceSegment := 0
  vbeInterfaceOffset := 0
  vbeInterfaceLength := 0
  framebufferAddress := 0
  framebufferPitch := 0
  framebufferWidth := 0
  framebufferHeight := 0
  framebufferDepth := 0
  framebufferType := 0
  colorFields := ⟨0, 0, 0, 0, 0, 0⟩

end InfoRecord

end EarlyBoot
