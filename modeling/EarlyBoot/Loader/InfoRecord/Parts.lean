import EarlyBoot.Loader.InfoFlags
import EarlyBoot.Loader.MemoryMap
import EarlyBoot.Loader.ModuleList
import EarlyBoot.Loader.InfoRecord.Basic

/-!
What the loader reports. Each part of the record is there only if its flag is set; a part that
lies elsewhere in memory is found through the mapping, which may fail.
-/

namespace EarlyBoot

/-- The sizes of conventional memory in KiB: below 1 MiB, and from there to the first hole. -/
structure MemorySizes where
  lower : UInt32
  upper : UInt32
deriving DecidableEq

def MemorySizes.total (s : MemorySizes) : UInt32 :=
  s.lower + s.upper

/-- The drive the image came from, and its partition at each of three levels. -/
structure BootDevice where
  drive : UInt8
  partitions : List UInt8
deriving DecidableEq

/-- A boot device is one word, with the drive in its highest byte. -/
def BootDevice.ofWord (w : UInt32) : BootDevice where
  drive := (w >>> 24).toUInt8
  partitions := [(w >>> 16).toUInt8, (w >>> 8).toUInt8, w.toUInt8]

/-- Where the symbols of the kernel image are, in one of two formats. -/
inductive Symbols where
  | aout (words : SymbolWords)
  | elf (words : SymbolWords)
deriving DecidableEq

structure Drives where
  address : Address .loader
  length : UInt32
deriving DecidableEq

structure ApmTable where
  version : UInt16
  codeSegment : UInt16
  offset : UInt32
  codeSegment16 : UInt16
  dataSegment : UInt16
  flags : UInt16
  codeSegmentLength : UInt16
  codeSegment16Length : UInt16
  dataSegmentLength : UInt16
deriving DecidableEq

/-- The table of 20 bytes at an address. -/
def ApmTable.readAt (m : Memory) (address : Nat) : ApmTable where
  version := m.word16 address
  codeSegment := m.word16 (address + 2)
  offset := m.word32 (address + 4)
  codeSegment16 := m.word16 (address + 8)
  dataSegment := m.word16 (address + 10)
  flags := m.word16 (address + 12)
  codeSegmentLength := m.word16 (address + 14)
  codeSegment16Length := m.word16 (address + 16)
  dataSegmentLength := m.word16 (address + 18)

structure VbeInfo where
  controlInfo : Address .loader
  modeInfo : Address .loader
  mode : UInt16
  interfaceSegment : UInt16
  interfaceOffset : UInt16
  interfaceLength : UInt16
deriving DecidableEq

/-- How the pixels of a framebuffer hold their colors. -/
inductive PixelFormat where
  | indexed (palette : Address .loader) (colors : UInt16)
  | rgb (fields : ColorFields)
  | egaText
  | unknown (type : UInt8)
deriving DecidableEq

structure Framebuffer where
  address : Address .physical
  pitch : UInt32
  width : UInt32
  height : UInt32
  depth : UInt8
  format : PixelFormat
deriving DecidableEq

namespace InfoRecord

variable (info : InfoRecord)

def infoFlags : InfoFlags :=
  .ofWord info.flags

def has (flag : InfoFlag) : Bool :=
  info.infoFlags.has flag

def part? {α : Type} (flag : InfoFlag) (value : α) : Option α :=
  if info.has flag then some value else none

/-- A part that has to be found first, if its flag is set. -/
def located? {α : Type} (flag : InfoFlag) (find : Except Fault α) : Except Fault (Option α) :=
  if info.has flag then some <$> find else .ok none

/-- Lower and upper memory together, modulo `2 ^ 32`, whether or not the sizes are there. -/
def totalMemory : UInt32 :=
  info.memLower + info.memUpper

def memorySizes? : Option MemorySizes :=
  info.part? .memory ⟨info.memLower, info.memUpper⟩

def bootDevice? : Option BootDevice :=
  info.part? .bootDevice (.ofWord info.bootDevice)

/-- The symbols. The two formats exclude each other, so a record with both flags has none. -/
def symbols? : Option Symbols :=
  match info.has .aoutSymbols, info.has .elfSections with
  | true, false => some (.aout info.symbols)
  | false, true => some (.elf info.symbols)
  | _, _ => none

def drives? : Option Drives :=
  info.part? .drives ⟨.ofWord info.drivesAddress, info.drivesLength⟩

def configTable? : Option (Address .loader) :=
  info.part? .configTable (.ofWord info.configTable)

def vbe? : Option VbeInfo :=
  info.part? .vbe
    { controlInfo := .ofWord info.vbeControlInfo
      modeInfo := .ofWord info.vbeModeInfo
      mode := info.vbeMode
      interfaceSegment := info.vbeInterfaceSegment
      interfaceOffset := info.vbeInterfaceOffset
      interfaceLength := info.vbeInterfaceLength }

/-- The type of the framebuffer decides what its six bytes of color information mean. -/
def pixelFormat : PixelFormat :=
  match info.framebufferType.toNat with
  | 0 => .indexed (.ofWord info.colorFields.paletteAddress) info.colorFields.paletteSize
  | 1 => .rgb info.colorFields
  | 2 => .egaText
  | _ => .unknown info.framebufferType

def framebuffer? : Option Framebuffer :=
  info.part? .framebuffer
    { address := .ofLongWord info.framebufferAddress
      pitch := info.framebufferPitch
      width := info.framebufferWidth
      height := info.framebufferHeight
      depth := info.framebufferDepth
      format := info.pixelFormat }

variable (m : MappedMemory)

def commandLineBlock? : Except Fault (Option MemoryBlock) :=
  info.located? .commandLine (m.stringBlock info.commandLine)

def commandLine? : Except Fault (Option Bytes) :=
  info.located? .commandLine (m.string info.commandLine)

def bootLoaderNameBlock? : Except Fault (Option MemoryBlock) :=
  info.located? .bootLoaderName (m.stringBlock info.bootLoaderName)

def bootLoaderName? : Except Fault (Option Bytes) :=
  info.located? .bootLoaderName (m.string info.bootLoaderName)

/-- The module list. Its address must be mapped even if the list is empty. -/
def modules? : Except Fault (Option ModuleList) :=
  info.located? .modules do
    return ⟨← m.locate (.ofWord info.modulesAddress), info.modulesCount.toNat⟩

def memoryMap? : Except Fault (Option MemoryMap) :=
  info.located? .memoryMap do
    return ⟨← m.locate (.ofWord info.memoryMapAddress), info.memoryMapLength.toNat⟩

def apmTable? : Except Fault (Option ApmTable) :=
  info.located? .apmTable do
    return .readAt m.memory (← m.locate (.ofWord info.apmTable)).toNat

/-- The record for a log: its flags. -/
def text : String :=
  "MultibootInfo \x7b flags: " ++ info.infoFlags.text ++ " \x7d"

end InfoRecord

end EarlyBoot
