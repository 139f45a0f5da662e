import EarlyBoot.Boot.Reading
import EarlyBoot.Options

/-!
What a boot says about the loader's report. The screen gets the loader and its flags, and the
command line and the memory map only on request; everything else goes to the log.
-/

namespace EarlyBoot

/-- The format for a log, with the names of its fields. -/
def PixelFormat.text : PixelFormat → String
  | .indexed palette colors =>
    "Indexed \x7b palette: PhysAddr32(" ++ Numeral.decimalText palette.toNat
      ++ "), num_colors: " ++ Numeral.decimalText colors.toNat ++ " \x7d"
  | .rgb fields =>
    let field (name : String) (value : UInt8) :=
      name ++ ": " ++ Numeral.decimalText value.toNat
    "Rgb(RgbFields \x7b "
      ++ ", ".intercalate
        [ field "red_position" fields.redPosition,
          field "red_mask_size" fields.redMaskSize,
          field "green_position" fields.greenPosition,
          field "green_mask_size" fields.greenMaskSize,
          field "blue_position" fields.bluePosition,
          field "blue_mask_size" fields.blueMaskSize ]
      ++ " \x7d)"
  | .egaText => "EgaText"
  | .unknown type => "Unknown(" ++ Numeral.decimalText type.toNat ++ ")"

def BootDevice.text (d : BootDevice) : String :=
  "drive " ++ Bytes.glyphs (Numeral.prefixedHex 2 d.drive.toNat) ++ ", partitions ["
    ++ ", ".intercalate (d.partitions.map fun p => Numeral.decimalText p.toNat) ++ "]"

/-- The framebuffer for a log: where it is, its size and depth, and its format. -/
def Framebuffer.text (f : Framebuffer) : String :=
  f.address.text ++ ": "
    ++ "x".intercalate
      [ Numeral.decimalText f.width.toNat, Numeral.decimalText f.height.toNat,
        Numeral.decimalText f.depth.toNat ]
    ++ " " ++ f.format.text

/-- The module for a log: where it is and its command line. -/
def BootModule.text (m : BootModule) : String :=
  m.start.text ++ ".." ++ m.stop.text ++ " " ++ Quoted.quote (Bytes.text m.commandLine)

def MemoryRegion.text (r : MemoryRegion) : String :=
  r.base.text ++ " " ++ Bytes.glyphs (Numeral.prefixedHex 1 r.length.toNat)
    ++ " " ++ r.type.text

namespace Boot.Report

variable {σ : Type} [Sink σ]

def logTarget : String := "nekko_kernel::kernel::diagnostics"

/-- Who loaded the kernel, and with which flags. -/
def loader (report : LoaderReport) : Boot σ Unit := do
  match ← part? report InfoRecord.bootLoaderNameBlock? with
  | some name =>
    print "Boot loader: "
    writeBlock report.memory name
    print " (flags "
    writeHex (← record report).flags
    print ")\n"
  | none =>
    print "Boot flags: "
    writeHex (← record report).flags
    print "\n"

def commandLine (m : LoadedMemory) (line : MemoryBlock) (options : Options) : Boot σ Unit := do
  logMade .info logTarget do
    return "command line: " ++ Quoted.quote (Bytes.text (← contents m line))
  if options.verbose then
    print "Command line: "
    writeBlock m line
    print "\n"

/-- Log `count` modules, or as many as there are. -/
def modules (m : MappedMemory) : Nat → ModuleList → Boot σ Unit
  | 0, _ => pure ()
  | count + 1, list => do
    match ← orStop (list.next m) with
    | none => pure ()
    | some (first, rest) =>
      log .debug logTarget ("module " ++ first.text)
      modules m count rest

/-- What the loader reports, in the order of the boot. -/
def info (report : LoaderReport) (options : Options) : Boot σ Unit := do
  loader report
  match ← part? report InfoRecord.commandLineBlock? with
  | some line => commandLine report.memory line options
  | none => pure ()
  match (← record report).bootDevice? with
  | some device => log .debug logTarget ("boot device: " ++ device.text)
  | none => pure ()
  match ← part? report InfoRecord.modules? with
  | some list =>
    log .info logTarget (Numeral.decimalText list.remaining ++ " boot modules")
    modules (← look report.memory) list.remaining list
  | none => pure ()
  match (← record report).framebuffer? with
  | some framebuffer => log .debug logTarget ("framebuffer " ++ framebuffer.text)
  | none => pure ()

/-- A text in the middle of a column, a little to the left if it cannot be in the middle. -/
def centered (width : Nat) (s : String) : String :=
  let room := width - s.length
  let left := room / 2
  String.ofList (List.replicate left ' ') ++ s ++ String.ofList (List.replicate (room - left) ' ')

def tableHead : String :=
  " ".intercalate [centered 4 "Type", centered 18 "Base", centered 18 "Length", "Description"]

def tableRow (r : MemoryRegion) : String :=
  " ".intercalate
    [ centered 4 r.type.letter.toString,
      Bytes.glyphs (Numeral.prefixedHex 16 r.base.toNat),
      Bytes.glyphs (Numeral.prefixedHex 16 r.length.toNat),
      r.type.description ]

def tableRows (m : LoadedMemory) (walk : MapWalk) : Boot σ Unit := do
  match _h : walk.next (← look m).memory with
  | (none, _) => pure ()
  | (some region, after) =>
    print (tableRow region ++ "\n")
    tableRows m after
termination_by walk.remaining
decreasing_by exact MapWalk.remaining_lt_of_next _h

/-- The memory map as a table, with a row for each region, and the available memory in MiB. -/
def memoryMap (map : MemoryMap) (m : LoadedMemory) : Boot σ Unit := do
  print "Memory map:\n"
  print (tableHead ++ "\n")
  tableRows m (← orStop map.walk)
  let available ← orStop (map.availableBytes (← look m).memory)
  print (" Available: " ++ Numeral.decimalText (available.toNat / 1024 / 1024) ++ " MiB\n")

end Boot.Report

end EarlyBoot
