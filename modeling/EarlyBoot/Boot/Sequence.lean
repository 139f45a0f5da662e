import EarlyBoot.Boot.Handoff
import EarlyBoot.Boot.Subsystems

/-!
The boot sequence, from the hand-off to the state in which the processor is parked. A hand-off
with the wrong magic number is reported and nothing is read through it. Otherwise the loader's
report is read, the options on its command line take effect, and the subsystems are set up.
-/

namespace EarlyBoot.Boot

variable {σ : Type} [Sink σ]

def bannerColor : Color := .lightGreen

def normalColor : Color := .white

def failureColor : Color := .lightRed

def readyColor : Color := .yellow

/-- Say on the screen why the hand-off is rejected. -/
def rejection : HandoffError → Boot σ Unit
  | .invalidMagic actual => do
    useColor failureColor
    print "ERROR: Invalid multiboot magic number!\n"
    print "Expected: "
    writeHex Handoff.loaderMagic
    print ", Got: "
    writeHex actual
    print "\n"

def reject (error : HandoffError) : Boot σ BootState := do
  log .error logTarget error.message
  rejection error
  print "System halted.\n"
  enter .halted
  return .halted

/-- The options on the loader's command line, with their remarks in the log. -/
def readOptions (report : LoaderReport) : Boot σ Options := do
  match ← part? report InfoRecord.commandLine? with
  | some line =>
    let tokens := CommandLine.tokens line
    (Options.remarks tokens).forM submit
    return Options.ofTokens tokens
  | none => return {}

/-- Read the loader's report and let its options take effect. -/
def readReport (infoAddress : Address .loader) (m : LoadedMemory) :
    Boot σ (LoaderReport × Options) := do
  let report ← orStop (m.report infoAddress)
  let options ← readOptions report
  note (.filter options.filter)
  logMade .info logTarget do
    return "boot information at " ++ infoAddress.text ++ ": " ++ (← record report).text
  Report.info report options
  return (report, options)

def setUp (report : LoaderReport) (options : Options) : Boot σ Unit := do
  print "\nInitializing kernel subsystems...\n"
  print "==================================\n"
  Subsystems.memory report options
  Subsystems.segments
  Subsystems.interruptTable
  Subsystems.interrupts

/-- Go on with a hand-off that was accepted. -/
def proceed (infoAddress : Address .loader) (m : LoadedMemory) : Boot σ BootState := do
  useColor normalColor
  print "Multiboot magic verified.\n"
  let (report, options) ← readReport infoAddress m
  enter .runningInit
  setUp report options
  useColor bannerColor
  print "\nKernel initialization complete!\n"
  print "===============================\n"
  useColor readyColor
  print "\nSystem ready. Entering idle loop...\n"
  perform (.setColors .default)
  enter .idle
  return .idle

/-- Boot, and give the state in which it ends. -/
def boot (handoff : Handoff) (m : LoadedMemory) : Boot σ BootState := do
  enter .booting
  useColor bannerColor
  print "nekkoOS Kernel v0.1\n"
  print "==================\n\n"
  enter .verifying
  match handoff.verify with
  | .ok infoAddress => proceed infoAddress m
  | .error error => reject error

end EarlyBoot.Boot
