import EarlyBoot.Proofs.Boot.Course
import EarlyBoot.Proofs.Boot.Outcome
import EarlyBoot.Proofs.Boot.Script
import EarlyBoot.Proofs.Options

/-!
The screen of a boot that is not verbose. Such a boot reads the command line, the modules and the
memory map too, but only for the log: what it shows is made from the flags, the name of the loader
and the memory sizes.
-/

namespace EarlyBoot

/-- A string that reads the same in two memories lies in the same place in both. -/
theorem MappedMemory.stringBlock_of_string_eq {m other : MappedMemory} {pointer : UInt32}
    (h : m.string pointer = other.string pointer) (hmapping : m.mapping = other.mapping)
    {block : MemoryBlock} (hblock : m.stringBlock pointer = .ok block) :
    other.stringBlock pointer = .ok block := by
  unfold string at h
  unfold stringBlock at *
  by_cases hzero : pointer = 0
  · rw [if_pos hzero] at hblock
    cases hblock
    exact if_pos hzero
  · simp only [if_neg hzero, locate, ← hmapping] at *
    cases hlocate : m.mapping.toVirtual (Address.ofWord pointer).extend with
    | error fault =>
        rw [hlocate] at hblock
        cases hblock
    | ok address =>
        rw [hlocate] at hblock h
        cases hblock
        have hstring : m.memory.stringAt address.toNat = other.memory.stringAt address.toNat := by
          simpa [Memory.contents_stringBlock] using h
        have hplace : other.memory.stringBlock address.toNat =
            m.memory.stringBlock address.toNat := by
          simp only [Memory.stringBlock, hstring]
        exact congrArg Except.ok hplace

/-- What a boot that is not verbose says about the loader's report. A part whose flag is not set
is not shown. -/
structure Summary where
  flags : UInt32
  sizes : MemorySizes
  loaderName : Bytes

namespace Summary

variable (summary : Summary)

def announces (flag : InfoFlag) : Bool :=
  summary.flags.toNat.testBit flag.bit

def sizes? : Option MemorySizes :=
  if summary.announces .memory then some summary.sizes else none

def loaderName? : Option Bytes :=
  if summary.announces .bootLoaderName then some summary.loaderName else none

end Summary

/-- The report at an address agrees with a summary in all parts that the flags announce, and it
does so whatever the screen shows. -/
structure LoadedMemory.SummedUp (m : LoadedMemory) (address : Address .loader)
    (summary : Summary) : Prop where
  flags : ∀ grid, ((m.showing grid).infoAt address).flags = summary.flags
  sizes : summary.flags.toNat.testBit InfoFlag.memory.bit → ∀ grid,
    ((m.showing grid).infoAt address).memLower = summary.sizes.lower ∧
      ((m.showing grid).infoAt address).memUpper = summary.sizes.upper
  loaderName : summary.flags.toNat.testBit InfoFlag.bootLoaderName.bit → ∀ found grid,
    (m.showing grid).string ((m.showing found).infoAt address).bootLoaderName =
      .ok summary.loaderName

namespace LoadedMemory

/-- If the screen lies apart from the memory, the report has to agree only once. -/
theorem summedUp_of_no_screen {m : LoadedMemory} (hscreen : m.screen = none)
    {address : Address .loader} {summary : Summary}
    (hflags : (m.apart.infoAt address).flags = summary.flags)
    (hsizes : summary.announces .memory →
      (m.apart.infoAt address).memLower = summary.sizes.lower ∧
        (m.apart.infoAt address).memUpper = summary.sizes.upper)
    (hname : summary.announces .bootLoaderName →
      m.apart.string (m.apart.infoAt address).bootLoaderName = .ok summary.loaderName) :
    m.SummedUp address summary := by
  constructor
  · intro grid
    rw [showing_of_no_screen hscreen]
    exact hflags
  · intro hset grid
    rw [showing_of_no_screen hscreen]
    exact hsizes hset
  · intro hset found grid
    rw [showing_of_no_screen hscreen, showing_of_no_screen hscreen]
    exact hname hset

namespace SummedUp

variable {m : LoadedMemory} {address : Address .loader} {summary : Summary}
  (h : m.SummedUp address summary)

include h

theorem has_eq (grid : Grid) (flag : InfoFlag) :
    ((m.showing grid).infoAt address).has flag = summary.announces flag := by
  rw [InfoRecord.has_eq_testBit, h.flags]
  rfl

theorem memorySizes?_eq (grid : Grid) :
    ((m.showing grid).infoAt address).memorySizes? = summary.sizes? := by
  unfold InfoRecord.memorySizes? InfoRecord.part? Summary.sizes?
  rw [h.has_eq]
  split
  · rename_i hset
    obtain ⟨hlower, hupper⟩ := h.sizes hset grid
    rw [hlower, hupper]
  · rfl

theorem totalMemory_eq {sizes : MemorySizes} (hsizes : summary.sizes? = some sizes)
    (grid : Grid) : ((m.showing grid).infoAt address).totalMemory = sizes.total := by
  unfold Summary.sizes? at hsizes
  split at hsizes
  · rename_i hset
    cases hsizes
    obtain ⟨hlower, hupper⟩ := h.sizes hset grid
    rw [InfoRecord.totalMemory, hlower, hupper]
    rfl
  · cases hsizes

/-- The name that is found at one moment reads as the name of the summary at every moment. -/
theorem contents_of_loaderNameBlock {found : Grid} {name : Option MemoryBlock}
    (hname : ((m.showing found).infoAt address).bootLoaderNameBlock? (m.showing found) = .ok name)
    (grid : Grid) : name.map (m.showing grid).memory.contents = summary.loaderName? := by
  unfold InfoRecord.bootLoaderNameBlock? InfoRecord.located? at hname
  rw [h.has_eq] at hname
  unfold Summary.loaderName?
  cases hset : summary.announces .bootLoaderName with
  | false =>
      rw [hset] at hname
      cases hname
      rfl
  | true =>
      rw [hset, if_pos rfl] at hname
      have htext := h.loaderName hset found
      cases hblock : (m.showing found).stringBlock
          ((m.showing found).infoAt address).bootLoaderName with
      | error fault =>
          rw [hblock] at hname
          cases hname
      | ok block =>
          rw [hblock] at hname
          cases hname
          have hsame := MappedMemory.stringBlock_of_string_eq
            ((htext found).trans (htext grid).symm) rfl hblock
          have hcontents := htext grid
          rw [MappedMemory.string, hsame] at hcontents
          rw [Option.map_some, if_pos rfl, Except.ok.inj hcontents]

end SummedUp

/-- The record of a report is the one at its address. -/
theorem readAt_of_report {m : LoadedMemory} {address : Address .loader} {report : LoaderReport}
    (h : m.report address = .ok report) (grid : Grid) :
    InfoRecord.readAt (report.memory.showing grid).memory report.record.toNat =
      (m.showing grid).infoAt address := by
  obtain ⟨rfl, hrecord⟩ := of_report h
  rw [MappedMemory.infoAt, DirectMapping.place_of_toVirtual hrecord]
  rfl

end LoadedMemory

namespace Boot

/-- Who loaded the kernel, if that is known, and with which flags. -/
def loaderScript (flags : UInt32) : Option Bytes → List Console.Operation
  | some name =>
    .writeText "Boot loader: " ::
      (name.map .put ++ [.writeText " (flags ", .writeHex flags, .writeText ")\n"])
  | none => [.writeText "Boot flags: ", .writeHex flags, .writeText "\n"]

def sizesScript : Option MemorySizes → List Console.Operation
  | some sizes =>
    [ .writeText "Memory: Lower = ", .writeDecimal sizes.lower,
      .writeText "KB, Upper = ", .writeDecimal sizes.upper, .writeText "KB\n",
      .writeText "Total conventional memory: ", .writeDecimal sizes.total,
      .writeText "KB (", .writeDecimal (sizes.total / 1024), .writeText "MB)\n" ]
  | none => []

def setUpScript (sizes? : Option MemorySizes) : List Console.Operation :=
  [ .writeText "\nInitializing kernel subsystems...\n",
    .writeText "==================================\n",
    .writeText "Initializing memory management...\n" ] ++
  (sizesScript sizes? ++
  [ .writeText "Memory management initialized.\n",
    .writeText "Initializing Global Descriptor Table...\n",
    .writeText "GDT initialized.\n",
    .writeText "Initializing Interrupt Descriptor Table...\n",
    .writeText "IDT initialized.\n",
    .writeText "Initializing interrupt handlers...\n",
    .writeText "Interrupts initialized.\n" ])

def readyScript : List Console.Operation :=
  [ .setColors (.of bannerColor .black),
    .writeText "\nKernel initialization complete!\n",
    .writeText "===============================\n",
    .setColors (.of readyColor .black),
    .writeText "\nSystem ready. Entering idle loop...\n",
    .setColors .default ]

/-- What a boot that is not verbose shows, from its first line to its last one. -/
def plainScript (summary : Summary) : List Console.Operation :=
  openingScript ++
    ([.setColors (.of normalColor .black), .writeText "Multiboot magic verified.\n"] ++
      (loaderScript summary.flags summary.loaderName? ++
        (setUpScript summary.sizes? ++ readyScript)))

section

variable {σ : Type} [Sink σ]

theorem draws_greeting : Draws (openingScript ++
    [.setColors (.of normalColor .black), .writeText "Multiboot magic verified.\n"])
    (fun _ => True) (greeting : Boot σ Unit) := by
  apply (Draws.enter _).first_dark
  apply (Draws.useColor _).step
  apply (Draws.print _).step
  apply (Draws.print _).step
  apply (Draws.enter _).first_dark
  apply (Draws.useColor _).step
  exact Draws.print _

theorem draws_readOptions {m : LoadedMemory} {infoAddress : Address .loader}
    {report : LoaderReport} (hreport : m.report infoAddress = .ok report)
    (hplain : ∀ grid tokens, (m.showing grid).commandTokens infoAddress = .ok tokens →
      .flag Options.verboseName ∉ tokens) :
    Draws [] (fun options => options.verbose = false) (readOptions report : Boot σ Options) := by
  obtain ⟨rfl, -⟩ := LoadedMemory.of_report hreport
  refine (Draws.part? report _).bind_dark ?_
  rintro line ⟨grid, hline⟩
  have hverbose := hplain grid _ (LoadedMemory.commandTokens_of_line hreport hline)
  rw [← Options.verbose_ofTokens, Bool.not_eq_true] at hverbose
  cases line with
  | none => exact .pure rfl
  | some line => exact (Draws.forM_dark fun _ => Draws.submit _).first_dark (.pure hverbose)

theorem draws_opening {m : LoadedMemory} {infoAddress : Address .loader}
    (hplain : ∀ grid tokens, (m.showing grid).commandTokens infoAddress = .ok tokens →
      .flag Options.verboseName ∉ tokens) :
    Draws (openingScript ++
      [.setColors (.of normalColor .black), .writeText "Multiboot magic verified.\n"])
      (fun result => m.report infoAddress = .ok result.1 ∧ result.2.verbose = false)
      (opening infoAddress m : Boot σ (LoaderReport × Options)) := by
  have hfound : Draws [] (fun report => m.report infoAddress = .ok report)
      (orStop (m.report infoAddress) : Boot σ LoaderReport) := Draws.orStop fun _ h => h
  apply draws_greeting.bind_last
  intro _ _
  apply hfound.bind_dark
  intro report hreport
  apply (draws_readOptions hreport hplain).bind_dark
  intro options hverbose
  exact .pure ⟨hreport, hverbose⟩

theorem modules_dark (m : MappedMemory) (count : Nat) (list : ModuleList) :
    Draws [] (fun _ => True) (Report.modules m count list : Boot σ Unit) := by
  induction count generalizing list with
  | zero => exact .pure trivial
  | succ count ih =>
      have hnext : Draws [] (fun _ => True)
          (orStop (list.next m) : Boot σ (Option (BootModule × ModuleList))) :=
        .orStop fun _ _ => trivial
      apply hnext.bind_dark
      intro next _
      cases next with
      | none => exact .pure trivial
      | some entry => exact (Draws.log _ _ _).first_dark (ih entry.2)

theorem draws_announcement (opening target message closing : String) :
    Draws [.writeText opening, .writeText closing] (fun _ => True) (do
      print opening
      log .debug target message
      print closing : Boot σ Unit) := by
  apply (Draws.print _).step
  exact (Draws.log _ _ _).first_dark (Draws.print _)

section

variable {report : LoaderReport} {options : Options} (hverbose : options.verbose = false)

include hverbose

theorem lineStage_dark :
    Draws [] (fun _ => True) (Report.lineStage report options : Boot σ Unit) := by
  refine (Draws.part? report _).bind_dark fun _ _ => Draws.optional_dark fun line _ => ?_
  apply (Draws.logMade _ _ ((Draws.contents _ line).bind_dark fun _ _ => .pure trivial)).first_dark
  rw [hverbose]
  exact .pure trivial

theorem mapStage_dark :
    Draws [] (fun _ => True) (Subsystems.mapStage report options : Boot σ Unit) := by
  refine (Draws.part? report _).bind_dark fun _ _ => Draws.optional_dark fun map _ => ?_
  have hregions (now : Memory) :
      Draws [] (fun _ => True) (orStop (map.regions now) : Boot σ (List MemoryRegion)) :=
    .orStop fun _ _ => trivial
  have havailable (now : Memory) :
      Draws [] (fun _ => True) (orStop (map.availableBytes now) : Boot σ UInt64) :=
    .orStop fun _ _ => trivial
  have hsums : Draws [] (fun _ => True)
      (Subsystems.sumsStage map report.memory : Boot σ Unit) :=
    Draws.logMade _ _ ((Draws.look _).bind_dark fun now _ =>
      (hregions now.memory).bind_dark fun _ _ => (havailable now.memory).bind_dark fun _ _ =>
        .pure trivial)
  rw [Subsystems.memoryMap_eq]
  apply hsums.first_dark
  refine (Draws.look _).bind_dark fun now _ => (hregions now.memory).bind_dark fun regions _ => ?_
  apply (Draws.forM_dark fun _ => Draws.log _ _ _).first_dark
  rw [hverbose]
  exact .pure trivial

end

section

variable {m : LoadedMemory} {address : Address .loader} {report : LoaderReport}
  {summary : Summary} (hreport : m.report address = .ok report)
  (hsummary : m.SummedUp address summary)

include hreport hsummary

theorem draws_memorySizes {sizes : MemorySizes} (hsizes : summary.sizes? = some sizes) :
    Draws (sizesScript (some sizes)) (fun _ => True)
      (Subsystems.memorySizes report sizes : Boot σ Unit) := by
  apply (Draws.print _).step
  apply (Draws.writeDecimal _).step
  apply (Draws.print _).step
  apply (Draws.writeDecimal _).step
  apply (Draws.print _).step
  apply (Draws.record report).bind_dark
  rintro _ ⟨grid, rfl⟩
  rw [LoadedMemory.readAt_of_report hreport, hsummary.totalMemory_eq hsizes]
  apply (Draws.print _).step
  apply (Draws.writeDecimal _).step
  apply (Draws.print _).step
  apply (Draws.writeDecimal _).step
  exact (Draws.print _).bind_last fun _ _ => Draws.log _ _ _

theorem draws_sizesStage :
    Draws (sizesScript summary.sizes?) (fun _ => True)
      (Subsystems.sizesStage report : Boot σ Unit) := by
  apply (Draws.record report).bind_dark
  rintro _ ⟨grid, rfl⟩
  rw [LoadedMemory.readAt_of_report hreport, hsummary.memorySizes?_eq]
  cases hsizes : summary.sizes? with
  | none => exact Draws.log _ _ _
  | some sizes => exact draws_memorySizes hreport hsummary hsizes

theorem draws_setUp {options : Options} (hverbose : options.verbose = false) :
    Draws (setUpScript summary.sizes?) (fun _ => True) (setUp report options : Boot σ Unit) := by
  unfold setUp
  rw [Subsystems.memory_eq, bind_assoc]
  apply (Draws.print _).step
  apply (Draws.print _).step
  apply (Draws.print _).step
  simp only [bind_assoc]
  apply (draws_sizesStage hreport hsummary).first
  apply (mapStage_dark hverbose).first_dark
  apply (Draws.print _).step
  apply (draws_announcement _ _ _ _).first
  apply (draws_announcement _ _ _ _).first
  exact draws_announcement _ _ _ _

omit [Sink σ] in
/-- The flags are read again when they are shown. -/
theorem draws_flags (closing : String) :
    Draws [.writeHex summary.flags, .writeText closing] (fun _ => True) (do
      writeHex (← record report).flags
      print closing : Boot σ Unit) := by
  apply (Draws.record report).bind_dark
  rintro _ ⟨grid, rfl⟩
  rw [LoadedMemory.readAt_of_report hreport, hsummary.flags]
  exact (Draws.writeHex _).step (Draws.print _)

omit [Sink σ] in
theorem draws_loader :
    Draws (loaderScript summary.flags summary.loaderName?) (fun _ => True)
      (Report.loader report : Boot σ Unit) := by
  apply (Draws.part? report _).bind_dark
  rintro name ⟨found, hname⟩
  rw [LoadedMemory.readAt_of_report hreport] at hname
  obtain ⟨rfl, -⟩ := LoadedMemory.of_report hreport
  have hcontents := hsummary.contents_of_loaderNameBlock hname
  cases name with
  | none =>
      rw [← hcontents found]
      exact (Draws.print _).step (draws_flags hreport hsummary _)
  | some block =>
      let text := (report.memory.showing found).memory.contents block
      have htext (grid : Grid) : (report.memory.showing grid).memory.contents block = text :=
        Option.some.inj ((hcontents grid).trans (hcontents found).symm)
      rw [← hcontents found]
      apply (Draws.print _).step
      apply (Draws.writeBlock htext).first
      exact (Draws.print _).step (draws_flags hreport hsummary _)

theorem draws_closing (infoAddress : Address .loader) {options : Options}
    (hverbose : options.verbose = false) :
    Draws (loaderScript summary.flags summary.loaderName? ++
      (setUpScript summary.sizes? ++ readyScript)) (fun state => state = .idle)
      (closing infoAddress report options : Boot σ BootState) := by
  have hdevice : Draws [] (fun _ => True) (Report.deviceStage report : Boot σ Unit) :=
    (Draws.record report).bind_dark fun _ _ => Draws.optional_dark fun _ _ => Draws.log _ _ _
  have hmodules : Draws [] (fun _ => True) (Report.modulesStage report : Boot σ Unit) :=
    (Draws.part? report _).bind_dark fun _ _ => Draws.optional_dark fun list _ =>
      (Draws.log _ _ _).first_dark
        ((Draws.look _).bind_dark fun now _ => modules_dark now _ list)
  have hframebuffer : Draws [] (fun _ => True) (Report.framebufferStage report : Boot σ Unit) :=
    (Draws.record report).bind_dark fun _ _ => Draws.optional_dark fun _ _ => Draws.log _ _ _
  have hinfo : Draws (loaderScript summary.flags summary.loaderName?) (fun _ => True)
      (Report.info report options : Boot σ Unit) := by
    rw [Report.info_eq]
    refine (draws_loader hreport hsummary).bind_last fun _ _ => ?_
    apply (lineStage_dark hverbose).first_dark
    apply hdevice.first_dark
    exact hmodules.first_dark hframebuffer
  apply (Draws.logMade _ _ ((Draws.record report).bind_dark fun _ _ => .pure trivial)).first_dark
  apply hinfo.first
  apply (Draws.enter _).first_dark
  apply (draws_setUp hreport hsummary hverbose).first
  apply (Draws.useColor _).step
  apply (Draws.print _).step
  apply (Draws.print _).step
  apply (Draws.useColor _).step
  apply (Draws.print _).step
  apply (Draws.perform _).step
  exact (Draws.enter _).first_dark (.pure rfl)

end

end

/-- A boot with the right magic number that gets to its end, on a command line without the flag
for more output. -/
structure PlainBoot (handoff : Handoff) (m : LoadedMemory) (console : Console)
    (filter : LogFilter) (state : BootState) : Prop where
  magic : handoff.magic = Handoff.loaderMagic
  returns : (ending handoff m console filter).outcome = .ok state
  plain : ∀ grid tokens, (m.showing grid).commandTokens handoff.infoAddress = .ok tokens →
    .flag Options.verboseName ∉ tokens

/-- A report that is no part of the screen makes a plain boot if its addresses are mapped and the
command line says nothing else. -/
theorem plainBoot_of_no_screen {handoff : Handoff} {m : LoadedMemory} {console : Console}
    (hscreen : m.screen = none) (hmagic : handoff.magic = Handoff.loaderMagic)
    (hroom : m.mapping.LeavesRoom)
    (hmapped : m.mapping.firstUnmapped? (m.apart.bootLookups handoff.infoAddress) = none)
    (hplaced : console.WellPlaced) (tokens : List CommandLine.Token)
    (htokens : m.apart.commandTokens handoff.infoAddress = .ok tokens)
    (hplain : .flag Options.verboseName ∉ tokens) (filter : LogFilter) :
    PlainBoot handoff m console filter .idle where
  magic := hmagic
  returns := by
    obtain ⟨run, hrun⟩ := exists_run_of_mapped handoff m ⟨console, #[], #[]⟩ hmagic hroom
      (LoadedMemory.keepsReport_of_no_screen hscreen _) hmapped hplaced
    rw [ending_of_journal hrun]
  plain grid found hfound := by
    rw [LoadedMemory.showing_of_no_screen hscreen, htokens] at hfound
    cases hfound
    exact hplain

/-- A plain boot puts on the screen what is made from the summary of its report. -/
theorem PlainBoot.draws {handoff : Handoff} {m : LoadedMemory} {console : Console}
    {filter : LogFilter} {state : BootState} (h : PlainBoot handoff m console filter state)
    {summary : Summary} (hsummary : m.SummedUp handoff.infoAddress summary) {σ : Type} [Sink σ] :
    Draws (plainScript summary) (fun state => state = .idle)
      (boot handoff m : Boot σ BootState) := by
  rw [boot_eq h.magic, plainScript, ← List.append_assoc]
  refine (draws_opening h.plain).bind ?_
  rintro ⟨report, options⟩ ⟨hreport, hverbose⟩
  exact (Draws.note _).first_dark (draws_closing hreport hsummary _ hverbose)

theorem PlainBoot.performed {handoff : Handoff} {m : LoadedMemory} {console : Console}
    {filter : LogFilter} {state : BootState} (h : PlainBoot handoff m console filter state)
    {summary : Summary} (hsummary : m.SummedUp handoff.infoAddress summary) :
    (ending handoff m console filter).performed = plainScript summary ∧ state = .idle := by
  cases hrun : (boot handoff m).run.run (⟨console, ⟨filter, #[]⟩, #[]⟩ : Run SerialLog) with
  | mk outcome run =>
      have hreturns := h.returns
      rw [ending_of_run hrun] at hreturns ⊢
      simp only at hreturns
      subst hreturns
      obtain ⟨hperformed, -, hidle⟩ := h.draws hsummary _ state run hrun
      exact ⟨by simp [hperformed], hidle⟩

/-- Plain boots from the same console end alike if their reports agree on the flags, and on the
memory sizes and the name of the loader where the flags announce them. Nothing else leaves a trace
on the screen: not the address of the report or the mapping, nor the command line and the filters,
nor the modules, the memory map and the other parts of the report. -/
theorem plain_boots_end_alike {first second : Handoff} {m m' : LoadedMemory} {console : Console}
    {filter filter' : LogFilter} {state state' : BootState}
    (hfirst : PlainBoot first m console filter state)
    (hsecond : PlainBoot second m' console filter' state') {summary : Summary}
    (hsummary : m.SummedUp first.infoAddress summary)
    (hsummary' : m'.SummedUp second.infoAddress summary) :
    (ending first m console filter).console = (ending second m' console filter').console ∧
      state = state' := by
  obtain ⟨hperformed, rfl⟩ := hfirst.performed hsummary
  obtain ⟨hperformed', rfl⟩ := hsecond.performed hsummary'
  have hplay := play_performed first m console filter
  have hplay' := play_performed second m' console filter'
  rw [hperformed] at hplay
  rw [hperformed'] at hplay'
  exact ⟨Except.ok.inj (hplay.symm.trans hplay'), rfl⟩

/-- A report with the memory sizes, the boot device, a command line and the name of the loader,
somewhere in the mapped memory. -/
def smallReport (mapping : DirectMapping) (start : Nat) (drive : UInt8) (line : String) :
    LoadedMemory where
  memory :=
    { byteAt := fun a =>
        let i := a - mapping.virtualBase.toNat
        if i < 0x200 then
          match i - start with
          | 0 => 0x07 | 1 => 0x02
          | 5 => 0x02
          | 10 => 0x01
          | 15 => drive
          | 17 => 0x03
          | 65 => 0x02
          | _ => 0
        else if i < 0x300 then (Bytes.ofText "GRUB").getD (i - 0x200) 0
        else (Bytes.ofText line).getD (i - 0x300) 0 }
  mapping := mapping

def lowReport : LoadedMemory :=
  smallReport .identity 0 0x80 "quiet"

def highReport : LoadedMemory :=
  smallReport ⟨⟨0x40000, by decide⟩, (Address.ofWord 0).extend, 0x400⟩ 0x40 0
    "loglevel=off root=hd0"

def smallSummary : Summary where
  flags := 0x0207
  sizes := ⟨0x0200, 0x10000⟩
  loaderName := Bytes.ofText "GRUB"

theorem lowReport_and_highReport_end_alike :
    let console := Console.new (.filled (.blank .default))
    let low : Handoff := ⟨Handoff.loaderMagic, .ofWord 0⟩
    let high : Handoff := ⟨Handoff.loaderMagic, .ofWord 0x40⟩
    PlainBoot low lowReport console .off .idle ∧
    PlainBoot high highReport console (.upTo .trace) .idle ∧
    lowReport.SummedUp low.infoAddress smallSummary ∧
    highReport.SummedUp high.infoAddress smallSummary ∧
    (ending low lowReport console .off).console =
      (ending high highReport console (.upTo .trace)).console := by
  intro console low high
  have hplaced : console.WellPlaced := Console.clear_wellPlaced _
  have hlow : PlainBoot low lowReport console .off .idle :=
    plainBoot_of_no_screen rfl rfl (by decide) (by decide +kernel) hplaced
      [.flag (Bytes.ofText "quiet")] (by decide +kernel) (by decide) .off
  have hhigh : PlainBoot high highReport console (.upTo .trace) .idle :=
    plainBoot_of_no_screen rfl rfl (by decide) (by decide +kernel) hplaced
      [ .option Options.logLevelName (Bytes.ofText "off"),
        .option (Bytes.ofText "root") (Bytes.ofText "hd0") ]
      (by decide +kernel) (by decide) (.upTo .trace)
  have hlowSummary : lowReport.SummedUp low.infoAddress smallSummary :=
    LoadedMemory.summedUp_of_no_screen rfl (by decide +kernel) (fun _ => by decide +kernel)
      (fun _ => by decide +kernel)
  have hhighSummary : highReport.SummedUp high.infoAddress smallSummary :=
    LoadedMemory.summedUp_of_no_screen rfl (by decide +kernel) (fun _ => by decide +kernel)
      (fun _ => by decide +kernel)
  exact ⟨hlow, hhigh, hlowSummary, hhighSummary,
    (plain_boots_end_alike hlow hhigh hlowSummary hhighSummary).1⟩

end Boot

end EarlyBoot
