import EarlyBoot.Boot.Report

/-!
Setting up the subsystems. Only memory has something to report so far; descriptor tables and
interrupts are announced and stay as the loader left them.
-/

namespace EarlyBoot.Boot.Subsystems

variable {σ : Type} [Sink σ]

def logTarget : String := "nekko_kernel::kernel::init"

def memorySizes (report : LoaderReport) (sizes : MemorySizes) : Boot σ Unit := do
  print "Memory: Lower = "
  writeDecimal sizes.lower
  print "KB, Upper = "
  writeDecimal sizes.upper
  print "KB\n"
  let total := (← record report).totalMemory
  print "Total conventional memory: "
  writeDecimal total
  print "KB ("
  writeDecimal (total / 1024)
  print "MB)\n"
  log .info logTarget ("conventional memory: " ++ Numeral.decimalText total.toNat ++ " KiB")

/-- How many regions there are, and how much memory is available in them. -/
def mapText (regions : List MemoryRegion) (available : UInt64) : String :=
  "memory map: " ++ Numeral.decimalText regions.length ++ " entries, "
    ++ Numeral.decimalText available.toNat ++ " bytes available"

/-- Log the memory map, and show it in a verbose boot. The map is walked for the sums, if they are
wanted, and again for its regions. -/
def memoryMap (map : MemoryMap) (m : LoadedMemory) (options : Options) : Boot σ Unit := do
  logMade .info logTarget do
    let now := (← look m).memory
    return mapText (← orStop (map.regions now)) (← orStop (map.availableBytes now))
  let regions ← orStop (map.regions (← look m).memory)
  regions.forM fun region => log .debug logTarget region.text
  if options.verbose then
    Report.memoryMap map m

def memory (report : LoaderReport) (options : Options) : Boot σ Unit := do
  print "Initializing memory management...\n"
  match (← record report).memorySizes? with
  | some sizes => memorySizes report sizes
  | none => log .warn logTarget "boot loader did not report memory sizes"
  match ← part? report InfoRecord.memoryMap? with
  | some map => memoryMap map report.memory options
  | none => pure ()
  print "Memory management initialized.\n"

def segments : Boot σ Unit := do
  print "Initializing Global Descriptor Table...\n"
  log .debug logTarget "keeping the flat segments of the boot loader"
  print "GDT initialized.\n"

def interruptTable : Boot σ Unit := do
  print "Initializing Interrupt Descriptor Table...\n"
  log .debug logTarget "no interrupt descriptor table installed"
  print "IDT initialized.\n"

def interrupts : Boot σ Unit := do
  print "Initializing interrupt handlers...\n"
  log .debug logTarget "interrupts stay disabled"
  print "Interrupts initialized.\n"

end EarlyBoot.Boot.Subsystems
