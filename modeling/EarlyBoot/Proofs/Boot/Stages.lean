import EarlyBoot.Boot.Sequence
import EarlyBoot.Proofs.Running

/-!
The steps of a boot, and its parts one after the other. Each part that the loader may have left out
is an action on an optional value, so that whatever is proved of actions in a row covers both cases
at once.
-/

namespace EarlyBoot

/-- The tokens on the command line of the report at an address. A report without a command line
has none. -/
def MappedMemory.commandTokens (m : MappedMemory) (address : Address .loader) :
    Except Fault (List CommandLine.Token) := do
  let record ← m.locate address
  let line ← (InfoRecord.readAt m.memory record.toNat).commandLine? m
  return (line.map CommandLine.tokens).getD []

/-- A report that is found lies in the memory, at the place that the mapping gives its address. -/
theorem LoadedMemory.of_report {m : LoadedMemory} {address : Address .loader}
    {report : LoaderReport} (h : m.report address = .ok report) :
    report.memory = m ∧ m.mapping.toVirtual address.extend = .ok report.record := by
  rw [LoadedMemory.report] at h
  cases hrecord : m.mapping.toVirtual address.extend with
  | error fault =>
      rw [hrecord] at h
      cases h
  | ok record =>
      rw [hrecord] at h
      cases h
      exact ⟨rfl, rfl⟩

theorem LoadedMemory.commandTokens_of_line {m : LoadedMemory} {address : Address .loader}
    {report : LoaderReport} (h : m.report address = .ok report) {grid : Grid}
    {line : Option Bytes}
    (hline : (InfoRecord.readAt (m.showing grid).memory report.record.toNat).commandLine?
      (m.showing grid) = .ok line) :
    (m.showing grid).commandTokens address = .ok ((line.map CommandLine.tokens).getD []) := by
  have hlocate : (m.showing grid).locate address = .ok report.record := (of_report h).2
  unfold MappedMemory.commandTokens
  simp only [hlocate, hline, bind, Except.bind]
  rfl

namespace Boot

variable {σ : Type}

theorem run_perform (operation : Console.Operation) (before : Run σ) :
    (perform operation).run.run before =
      match before.console.perform operation with
      | .ok (_, console) =>
        (.ok (), ⟨console, before.log, before.performed.push operation⟩)
      | .error fault => (.error fault, before) := by
  have hget : (get : Boot σ (Run σ)).run.run before = (.ok before, before) := rfl
  rw [perform, run_bind_of_ok hget]
  cases before.console.perform operation <;> rfl

variable [Sink σ]

theorem run_offer_of_admits {level : LogLevel} {before : Run σ}
    (h : Sink.admits before.log level = true) (entry : Boot σ Entry) :
    (offer level entry).run.run before = (entry >>= note).run.run before := by
  have hget : (get : Boot σ (Run σ)).run.run before = (.ok before, before) := rfl
  rw [offer, run_bind_of_ok hget, if_pos h]

/-- Nothing is worked out for a record that is not wanted. -/
theorem run_offer_of_refuses {level : LogLevel} {before : Run σ}
    (h : Sink.admits before.log level = false) (entry : Boot σ Entry) :
    (offer level entry).run.run before = (.ok (), before) := by
  have hget : (get : Boot σ (Run σ)).run.run before = (.ok before, before) := rfl
  rw [offer, run_bind_of_ok hget, h]
  rfl

/-- To log a record leaves everything alone but the log. -/
theorem exists_run_submit (r : LogRecord) (before : Run σ) :
    ∃ log, (submit r).run.run before = (.ok (), { before with log := log }) := by
  cases hadmits : Sink.admits before.log r.level with
  | false => exact ⟨before.log, run_offer_of_refuses hadmits _⟩
  | true => exact ⟨Sink.take before.log (.record r), run_offer_of_admits hadmits _⟩

namespace Report

def lineStage (report : LoaderReport) (options : Options) : Boot σ Unit := do
  (← part? report InfoRecord.commandLineBlock?).forM fun line =>
    commandLine report.memory line options

def deviceStage (report : LoaderReport) : Boot σ Unit := do
  (← record report).bootDevice?.forM fun device =>
    log .debug logTarget ("boot device: " ++ device.text)

def modulesStage (report : LoaderReport) : Boot σ Unit := do
  (← part? report InfoRecord.modules?).forM fun list => do
    log .info logTarget (Numeral.decimalText list.remaining ++ " boot modules")
    modules (← look report.memory) list.remaining list

def framebufferStage (report : LoaderReport) : Boot σ Unit := do
  (← record report).framebuffer?.forM fun framebuffer =>
    log .debug logTarget ("framebuffer " ++ framebuffer.text)

theorem info_eq (report : LoaderReport) (options : Options) :
    (info report options : Boot σ Unit) = (do
      loader report
      lineStage report options
      deviceStage report
      modulesStage report
      framebufferStage report) := by
  unfold info
  extract_lets afterModules afterDevice afterLine
  have hframebuffer : afterModules () = framebufferStage report :=
    bind_congr fun now => by cases now.framebuffer? <;> rfl
  have hmodules : afterDevice () = (do modulesStage report; framebufferStage report) := by
    simp only [modulesStage, bind_assoc]
    refine bind_congr fun list => ?_
    cases list with
    | none => exact hframebuffer
    | some list => simp only [Option.forM_eq_forM, Option.forM_some, bind_assoc, hframebuffer]
  have hdevice : afterLine () =
      (do deviceStage report; modulesStage report; framebufferStage report) := by
    simp only [deviceStage, bind_assoc]
    refine bind_congr fun now => ?_
    cases now.bootDevice? with
    | none => exact hmodules
    | some device => simp only [Option.forM_eq_forM, Option.forM_some, hmodules]
  simp only [lineStage, bind_assoc]
  refine bind_congr fun _ => bind_congr fun line => ?_
  cases line with
  | none => exact hdevice
  | some line => simp only [Option.forM_eq_forM, Option.forM_some, hdevice]

omit [Sink σ] in
theorem tableRows_eq (m : LoadedMemory) (walk : MapWalk) :
    (tableRows m walk : Boot σ Unit) = (do
      match walk.next (← look m).memory with
      | (none, _) => pure ()
      | (some region, after) =>
        print (tableRow region ++ "\n")
        tableRows m after) := by
  rw [tableRows]
  refine bind_congr fun now => ?_
  split <;> rename_i hnext <;> rw [hnext]

end Report

namespace Subsystems

def sumsStage (map : MemoryMap) (m : LoadedMemory) : Boot σ Unit :=
  logMade .info logTarget do
    let now := (← look m).memory
    return mapText (← orStop (map.regions now)) (← orStop (map.availableBytes now))

def regionsStage (map : MemoryMap) (m : LoadedMemory) (options : Options) : Boot σ Unit := do
  let regions ← orStop (map.regions (← look m).memory)
  regions.forM fun region => log .debug logTarget region.text
  if options.verbose then
    Report.memoryMap map m

theorem memoryMap_eq (map : MemoryMap) (m : LoadedMemory) (options : Options) :
    (memoryMap map m options : Boot σ Unit) = (do
      sumsStage map m
      regionsStage map m options) :=
  rfl

/-- A map that has no walk stops the boot, whether or not its sums are wanted. -/
theorem memoryMap_of_error {map : MemoryMap} {fault : Fault} (h : map.walk = .error fault)
    (m : LoadedMemory) (options : Options) :
    (memoryMap map m options : Boot σ Unit) = orStop (.error fault) := by
  have hregions (now : Memory) : map.regions now = .error fault := by
    rw [MemoryMap.regions, h]
    rfl
  funext before
  unfold memoryMap
  simp only [hregions]
  cases hadmits : Sink.admits before.log .info with
  | false => exact run_bind_of_ok (run_offer_of_refuses hadmits _) _
  | true => exact run_bind_of_error (run_offer_of_admits hadmits _) _

def sizesStage (report : LoaderReport) : Boot σ Unit := do
  match (← record report).memorySizes? with
  | some sizes => memorySizes report sizes
  | none => log .warn logTarget "boot loader did not report memory sizes"

def mapStage (report : LoaderReport) (options : Options) : Boot σ Unit := do
  (← part? report InfoRecord.memoryMap?).forM fun map => memoryMap map report.memory options

theorem memory_eq (report : LoaderReport) (options : Options) :
    (memory report options : Boot σ Unit) = (do
      print "Initializing memory management...\n"
      sizesStage report
      mapStage report options
      print "Memory management initialized.\n") := by
  unfold memory
  extract_lets afterMap afterSizes
  have hmap : afterSizes () =
      (do mapStage report options; print "Memory management initialized.\n") := by
    simp only [mapStage, bind_assoc]
    refine bind_congr fun map => ?_
    cases map <;> rfl
  simp only [sizesStage, bind_assoc]
  refine bind_congr fun _ => bind_congr fun now => ?_
  cases now.memorySizes? <;> exact bind_congr fun _ => hmap

end Subsystems

/-- What a boot with the right magic number does before it reads anything. -/
def greeting : Boot σ Unit := do
  enter .booting
  useColor bannerColor
  print "nekkoOS Kernel v0.1\n"
  print "==================\n\n"
  enter .verifying
  useColor normalColor
  print "Multiboot magic verified.\n"

/-- What a boot with the right magic number does until it has its options. -/
def opening (infoAddress : Address .loader) (m : LoadedMemory) :
    Boot σ (LoaderReport × Options) := do
  greeting
  let report ← orStop (m.report infoAddress)
  let options ← readOptions report
  return (report, options)

/-- What a boot does once its options are in force. -/
def closing (infoAddress : Address .loader) (report : LoaderReport) (options : Options) :
    Boot σ BootState := do
  logMade .info logTarget do
    return "boot information at " ++ infoAddress.text ++ ": " ++ (← record report).text
  Report.info report options
  enter .runningInit
  setUp report options
  useColor bannerColor
  print "\nKernel initialization complete!\n"
  print "===============================\n"
  useColor readyColor
  print "\nSystem ready. Entering idle loop...\n"
  perform (.setColors .default)
  enter .idle
  return .idle

theorem boot_eq {handoff : Handoff} (hmagic : handoff.magic = Handoff.loaderMagic)
    (m : LoadedMemory) :
    (boot handoff m : Boot σ BootState) = (do
      let (report, options) ← opening handoff.infoAddress m
      note (.filter options.filter)
      closing handoff.infoAddress report options) := by
  have hverify : handoff.verify = .ok handoff.infoAddress := if_pos hmagic
  simp only [boot, hverify, proceed, readReport, opening, greeting, closing, bind_assoc, pure_bind]

end Boot

end EarlyBoot
