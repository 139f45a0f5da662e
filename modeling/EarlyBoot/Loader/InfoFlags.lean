/-!
The flags word of the boot information. Each of its lowest thirteen bits says that the loader
filled in some fields; the other bits mean nothing here.
-/

namespace EarlyBoot

/-- A part of the boot information that is there or not. -/
inductive InfoFlag where
  | memory
  | bootDevice
  | commandLine
  | modules
  | aoutSymbols
  | elfSections
  | memoryMap
  | drives
  | configTable
  | bootLoaderName
  | apmTable
  | vbe
  | framebuffer
deriving DecidableEq

namespace InfoFlag

def all : List InfoFlag :=
  [ memory, bootDevice, commandLine, modules, aoutSymbols, elfSections, memoryMap, drives,
    configTable, bootLoaderName, apmTable, vbe, framebuffer ]

/-- The bit of a flag, as a word. -/
def mask : InfoFlag → UInt32
  | memory => 0x0001
  | bootDevice => 0x0002
  | commandLine => 0x0004
  | modules => 0x0008
  | aoutSymbols => 0x0010
  | elfSections => 0x0020
  | memoryMap => 0x0040
  | drives => 0x0080
  | configTable => 0x0100
  | bootLoaderName => 0x0200
  | apmTable => 0x0400
  | vbe => 0x0800
  | framebuffer => 0x1000

def name : InfoFlag → String
  | memory => "MEMORY"
  | bootDevice => "BOOT_DEVICE"
  | commandLine => "CMDLINE"
  | modules => "MODULES"
  | aoutSymbols => "AOUT_SYMBOLS"
  | elfSections => "ELF_SECTIONS"
  | memoryMap => "MEMORY_MAP"
  | drives => "DRIVES"
  | configTable => "CONFIG_TABLE"
  | bootLoaderName => "BOOT_LOADER_NAME"
  | apmTable => "APM_TABLE"
  | vbe => "VBE"
  | framebuffer => "FRAMEBUFFER"

end InfoFlag

/-- A set of flags as the word that stands for it. -/
structure InfoFlags where
  word : UInt32
deriving DecidableEq

namespace InfoFlags

def known : UInt32 := 0x1FFF

/-- The flags among the bits of a word. -/
def ofWord (w : UInt32) : InfoFlags :=
  ⟨w &&& known⟩

/-- Whether every flag of `other` is set. -/
def includes (flags other : InfoFlags) : Bool :=
  flags.word &&& other.word == other.word

def has (flags : InfoFlags) (flag : InfoFlag) : Bool :=
  flags.includes ⟨flag.mask⟩

def text (flags : InfoFlags) : String :=
  match InfoFlag.all.filter flags.has with
  | [] => "(empty)"
  | set => " | ".intercalate (set.map InfoFlag.name)

end InfoFlags

end EarlyBoot
