import EarlyBoot.Proofs.Boot.Itinerary
import EarlyBoot.Proofs.Boot.Stages

/-!
The way of a boot through the loader's report. Each part of the boot comes to the addresses that
its own reads name, and only the sequence itself enters states. A report that stays as it is names
the same addresses at every moment. One that the screen reaches into may name others each time it
is read, which does not matter if all addresses of the loader are mapped.
-/

namespace EarlyBoot

/-- The addresses that a report makes to be found while it is shown. -/
def InfoRecord.reportLookups (info : InfoRecord) (m : MappedMemory) : List (Address .loader) :=
  info.lookups .bootLoaderName (stringLookups info.bootLoaderName) ++
    (info.lookups .commandLine (stringLookups info.commandLine) ++ info.modulesLookups m)

/-- The memory without the screen. -/
def LoadedMemory.apart (m : LoadedMemory) : MappedMemory where
  memory := m.memory
  mapping := m.mapping

/-- The addresses that the parts of a report make to be found. -/
structure ReportRoute where
  commandLine : List (Address .loader)
  bootLoaderName : List (Address .loader)
  /-- The module table and the command lines of the modules. -/
  modules : List (Address .loader)
  memoryMap : List (Address .loader)

namespace ReportRoute

/-- What is looked up while the report is shown. -/
def shown (route : ReportRoute) : List (Address .loader) :=
  route.bootLoaderName ++ (route.commandLine ++ route.modules)

/-- What is looked up before the subsystems are set up. -/
def read (route : ReportRoute) : List (Address .loader) :=
  route.commandLine ++ route.shown

/-- The route of a report that can miss nothing. -/
def none : ReportRoute := ⟨[], [], [], []⟩

end ReportRoute

/-- The route of a report that stays as it is. -/
def InfoRecord.route (info : InfoRecord) (m : MappedMemory) : ReportRoute where
  commandLine := info.lookups .commandLine (stringLookups info.commandLine)
  bootLoaderName := info.lookups .bootLoaderName (stringLookups info.bootLoaderName)
  modules := info.modulesLookups m
  memoryMap := info.lookups .memoryMap [.ofWord info.memoryMapAddress]

namespace Boot

/-- Whatever the screen shows in the meantime, the parts of the report come to the addresses on
this route. A memory map that is found ends before the last address. -/
structure Follows (report : LoaderReport) (route : ReportRoute) : Prop where
  commandLine : Visits report.memory.mapping (route.commandLine.map .address) (fun _ => True)
    (part? report InfoRecord.commandLine?)
  commandLineBlock : Visits report.memory.mapping (route.commandLine.map .address)
    (fun _ => True) (part? report InfoRecord.commandLineBlock?)
  bootLoaderName : Visits report.memory.mapping (route.bootLoaderName.map .address)
    (fun _ => True) (part? report InfoRecord.bootLoaderNameBlock?)
  modules : Visits report.memory.mapping (route.modules.map .address) (fun _ => True)
    (Report.modulesStage report)
  memoryMap : Visits report.memory.mapping (route.memoryMap.map .address)
    (fun map? => ∀ map ∈ map?, map.start.toNat + map.length < 2 ^ 64)
    (part? report InfoRecord.memoryMap?)

variable {mapping : DirectMapping}

theorem visits_commandLine (m : LoadedMemory) (line : MemoryBlock) (options : Options) :
    Visits mapping [] (fun _ => True) (Report.commandLine m line options) := by
  unfold Report.commandLine
  have hmessage : Visits mapping [] (fun _ => True) (do
      return "command line: " ++ Quoted.quote (Bytes.text (← contents m line))) :=
    (Visits.contents m line).bind_quiet fun _ _ => .pure trivial
  apply Visits.first (Visits.logMade _ _ hmessage)
  split
  · apply Visits.first (Visits.print _)
    apply Visits.first (Visits.writeBlock m line)
    exact Visits.print _
  · exact .pure trivial

/-- Each module makes its command line to be found, whatever the log lets through. -/
theorem visits_modules {m : MappedMemory} (hroom : m.mapping.LeavesRoom) (count : Nat)
    (list : ModuleList) (hcount : list.remaining = count)
    (hfits : list.position.toNat + 16 * count < 2 ^ 64) :
    Visits m.mapping ((moduleLookups m.memory list.position.toNat count).map .address)
      (fun _ => True) (Report.modules m count list) := by
  induction count generalizing list with
  | zero => exact .pure trivial
  | succ count ih =>
      rw [moduleLookups_succ, List.map_append]
      have hnext := ModuleList.finds_next hroom list (by omega) (by omega)
      apply (Visits.orStop hnext).bind
      rintro _ ⟨first, rest, rfl, hposition, hrest⟩
      apply Visits.first (Visits.log _ _ _)
      rw [← hposition]
      exact ih rest (by omega) (by omega)

theorem visits_tableRows (m : LoadedMemory) (walk : MapWalk) :
    Visits mapping [] (fun _ => True) (Report.tableRows m walk) := by
  induction hremaining : walk.remaining using Nat.strongRecOn generalizing walk with
  | ind remaining ih =>
      unfold Report.tableRows
      apply (Visits.look m).bind_quiet
      intro now _
      split
      · exact .pure trivial
      · rename_i region after hnext
        apply Visits.first (Visits.print _)
        exact ih _ (hremaining ▸ MapWalk.remaining_lt_of_next hnext) after rfl

theorem visits_table {map : MemoryMap} (h : map.start.toNat + map.length < 2 ^ 64)
    (m : LoadedMemory) : Visits mapping [] (fun _ => True) (Report.memoryMap map m) := by
  unfold Report.memoryMap
  rw [MemoryMap.walk_of_lt h]
  apply Visits.first (Visits.print _)
  apply Visits.first (Visits.print _)
  apply (Visits.orStop_ok _).bind_quiet
  intro walk _
  apply (visits_tableRows m walk).bind_quiet
  intro _ _
  apply (Visits.look m).bind_quiet
  intro now _
  obtain ⟨available, havailable⟩ := MemoryMap.exists_availableBytes h now.memory
  rw [havailable]
  apply (Visits.orStop_ok _).bind_quiet
  intro _ _
  exact Visits.print _

theorem visits_memoryMap {map : MemoryMap} (h : map.start.toNat + map.length < 2 ^ 64)
    (m : LoadedMemory) (options : Options) :
    Visits mapping [] (fun _ => True) (Subsystems.memoryMap map m options) := by
  have hregions (now : MappedMemory) : Visits mapping [] (fun _ => True)
      (orStop (map.regions now.memory)) := by
    obtain ⟨regions, hregions⟩ := MemoryMap.exists_regions h now.memory
    rw [hregions]
    exact Visits.orStop_ok _
  have havailable (now : MappedMemory) : Visits mapping [] (fun _ => True)
      (orStop (map.availableBytes now.memory)) := by
    obtain ⟨available, havailable⟩ := MemoryMap.exists_availableBytes h now.memory
    rw [havailable]
    exact Visits.orStop_ok _
  have hsums : Visits mapping [] (fun _ => True) (Subsystems.sumsStage map m) :=
    Visits.logMade _ _ ((Visits.look m).bind_quiet fun now _ => (hregions now).bind_quiet fun _ _ =>
      (havailable now).bind_quiet fun _ _ => .pure trivial)
  rw [Subsystems.memoryMap_eq]
  apply hsums.first
  apply (Visits.look m).bind_quiet
  intro now _
  apply (hregions now).bind_quiet
  intro regions _
  apply (Visits.forM fun _ => Visits.log _ _ _).first
  split
  · exact visits_table h m
  · exact .pure trivial

theorem visits_announcement (opening target message closing : String) :
    Visits mapping [] (fun _ => True) (do
      print opening
      log .debug target message
      print closing) := by
  apply Visits.first (Visits.print _)
  apply Visits.first (Visits.log _ _ _)
  exact Visits.print _

theorem visits_memorySizes (report : LoaderReport) (sizes : MemorySizes) :
    Visits mapping [] (fun _ => True) (Subsystems.memorySizes report sizes) := by
  unfold Subsystems.memorySizes
  apply Visits.first (Visits.print _)
  apply Visits.first (Visits.writeDecimal _)
  apply Visits.first (Visits.print _)
  apply Visits.first (Visits.writeDecimal _)
  apply Visits.first (Visits.print _)
  apply (Visits.record report).bind_quiet
  intro _ _
  apply Visits.first (Visits.print _)
  apply Visits.first (Visits.writeDecimal _)
  apply Visits.first (Visits.print _)
  apply Visits.first (Visits.writeDecimal _)
  apply Visits.first (Visits.print _)
  exact Visits.log _ _ _

section

variable {report : LoaderReport} {stations : List Station}

theorem visits_readOptions
    (hline : Visits report.memory.mapping stations (fun _ => True)
      (part? report InfoRecord.commandLine?)) :
    Visits report.memory.mapping stations (fun _ => True) (readOptions report) := by
  unfold readOptions
  apply hline.bind_last
  intro line _
  cases line with
  | none => exact .pure trivial
  | some line =>
      exact Visits.first (Visits.forM fun remark => Visits.submit remark) (.pure trivial)

theorem visits_flags (report : LoaderReport) (closing : String) :
    Visits mapping [] (fun _ => True) (do
      writeHex (← record report).flags
      print closing) := by
  apply (Visits.record report).bind_quiet
  intro _ _
  apply Visits.first (Visits.writeHex _)
  exact Visits.print _

theorem visits_loader
    (hname : Visits report.memory.mapping stations (fun _ => True)
      (part? report InfoRecord.bootLoaderNameBlock?)) :
    Visits report.memory.mapping stations (fun _ => True) (Report.loader report) := by
  unfold Report.loader
  apply hname.bind_last
  intro name _
  cases name with
  | none =>
      apply Visits.first (Visits.print _)
      exact visits_flags report _
  | some name =>
      apply Visits.first (Visits.print _)
      apply Visits.first (Visits.writeBlock _ _)
      apply Visits.first (Visits.print _)
      exact visits_flags report _

theorem visits_info {route : ReportRoute} (hroute : Follows report route) (options : Options) :
    Visits report.memory.mapping (route.shown.map .address) (fun _ => True)
      (Report.info report options) := by
  have hline : Visits report.memory.mapping (route.commandLine.map .address) (fun _ => True)
      (Report.lineStage report options) :=
    hroute.commandLineBlock.bind_last fun _ _ =>
      Visits.optional fun line _ => visits_commandLine _ line options
  have hdevice : Visits report.memory.mapping [] (fun _ => True) (Report.deviceStage report) :=
    (Visits.record report).bind_quiet fun _ _ => Visits.optional fun _ _ => Visits.log _ _ _
  have hframebuffer : Visits report.memory.mapping [] (fun _ => True)
      (Report.framebufferStage report) :=
    (Visits.record report).bind_quiet fun _ _ => Visits.optional fun _ _ => Visits.log _ _ _
  rw [Report.info_eq, ReportRoute.shown, List.map_append, List.map_append]
  apply (visits_loader hroute.bootLoaderName).bind
  intro _ _
  apply hline.bind
  intro _ _
  apply hdevice.first
  exact hroute.modules.bind_last fun _ _ => hframebuffer

theorem visits_memory
    (hmap : Visits report.memory.mapping stations
      (fun map? => ∀ map ∈ map?, map.start.toNat + map.length < 2 ^ 64)
      (part? report InfoRecord.memoryMap?)) (options : Options) :
    Visits report.memory.mapping stations (fun _ => True) (Subsystems.memory report options) := by
  have hsizes : Visits report.memory.mapping [] (fun _ => True)
      (Subsystems.sizesStage report) := by
    apply (Visits.record report).bind_quiet
    intro now _
    cases now.memorySizes? with
    | none => exact Visits.log _ _ _
    | some sizes => exact visits_memorySizes report sizes
  have hstage : Visits report.memory.mapping stations (fun _ => True)
      (Subsystems.mapStage report options) :=
    hmap.bind_last fun _ hfits =>
      Visits.optional fun map hmem => visits_memoryMap (hfits map hmem) _ options
  rw [Subsystems.memory_eq]
  apply Visits.first (Visits.print _)
  apply hsizes.first
  exact hstage.bind_last fun _ _ => Visits.print _

theorem visits_setUp
    (hmap : Visits report.memory.mapping stations
      (fun map? => ∀ map ∈ map?, map.start.toNat + map.length < 2 ^ 64)
      (part? report InfoRecord.memoryMap?)) (options : Options) :
    Visits report.memory.mapping stations (fun _ => True) (setUp report options) := by
  unfold setUp
  apply Visits.first (Visits.print _)
  apply Visits.first (Visits.print _)
  apply (visits_memory hmap options).bind_last
  intro _ _
  apply Visits.first (visits_announcement _ _ _ _)
  apply Visits.first (visits_announcement _ _ _ _)
  exact visits_announcement _ _ _ _

end

section

variable {report : LoaderReport} {info : InfoRecord}
  (hinfo : ∀ grid, InfoRecord.readAt (report.memory.showing grid).memory report.record.toNat = info)
  (hroom : report.memory.mapping.LeavesRoom)
  (htable : ∀ grid,
    moduleLookups (report.memory.showing grid).memory
        (report.memory.mapping.place (.ofWord info.modulesAddress)) info.modulesCount.toNat =
      moduleLookups report.memory.memory
        (report.memory.mapping.place (.ofWord info.modulesAddress)) info.modulesCount.toNat)

include hinfo hroom htable

theorem visits_modulesStage :
    Visits report.memory.mapping ((info.modulesLookups report.memory.apart).map .address)
      (fun _ => True) (Report.modulesStage report) := by
  have hfind : ∀ grid, (report.memory.showing grid).mapping.Finds
      (info.lookups .modules [.ofWord info.modulesAddress])
      (info.PartOf .modules fun list =>
        list.position.toNat = report.memory.mapping.place (.ofWord info.modulesAddress) ∧
          list.remaining = info.modulesCount.toNat ∧
          list.position.toNat + 16 * list.remaining < 2 ^ 64)
      (info.modules? (report.memory.showing grid)) :=
    fun grid => info.finds_modules? hroom
  rw [info.modulesLookups_eq, List.map_append]
  apply (Visits.part? hinfo hfind).bind
  rintro list ⟨hsome, hlist⟩
  cases list with
  | none =>
      rw [InfoRecord.lookups, ← hsome]
      exact .pure trivial
  | some list =>
      obtain ⟨hposition, hremaining, hfits⟩ := hlist list rfl
      apply Visits.first (Visits.log _ _ _)
      apply (Visits.look report.memory).bind_quiet
      rintro _ ⟨grid, rfl⟩
      have hmoduleList := visits_modules (m := report.memory.showing grid) hroom
        list.remaining list rfl hfits
      rw [hposition, hremaining, htable] at hmoduleList
      rw [InfoRecord.lookups, ← hsome, hremaining]
      exact hmoduleList

theorem follows_of_still : Follows report (info.route report.memory.apart) where
  commandLine := Visits.part? hinfo fun _ =>
    (info.finds_commandLine? hroom).imp fun _ _ => trivial
  commandLineBlock := Visits.part? hinfo fun _ =>
    (info.finds_commandLineBlock? hroom).imp fun _ _ => trivial
  bootLoaderName := Visits.part? hinfo fun _ =>
    (info.finds_bootLoaderNameBlock? hroom).imp fun _ _ => trivial
  modules := visits_modulesStage hinfo hroom htable
  memoryMap := Visits.part? hinfo fun _ =>
    (info.finds_memoryMap? hroom).imp fun _ hpart => hpart.2

end

section

variable {report : LoaderReport} (hroom : report.memory.mapping.LeavesRoom)
  (hcovers : report.memory.mapping.CoversLoader)

include hcovers in
/-- A part that looks for other addresses each time finds them all. -/
theorem visits_part?_of_covers {α : Type} {kind : Option α → Prop}
    {part : InfoRecord → MappedMemory → Except Fault (Option α)}
    {lookups : InfoRecord → List (Address .loader)}
    (h : ∀ info grid, (report.memory.showing grid).mapping.Finds (lookups info) kind
      (part info (report.memory.showing grid))) :
    Visits report.memory.mapping [] kind (part? report part) := by
  apply (Visits.look report.memory).bind_quiet
  rintro _ ⟨grid, rfl⟩
  exact (Visits.orStop (h _ grid)).of_covers hcovers

include hroom hcovers

theorem visits_modulesStage_of_covers :
    Visits report.memory.mapping [] (fun _ => True) (Report.modulesStage report) := by
  have hlist : Visits report.memory.mapping []
      (fun list? => ∀ list ∈ list?, list.position.toNat + 16 * list.remaining < 2 ^ 64)
      (part? report InfoRecord.modules?) :=
    visits_part?_of_covers hcovers fun info grid =>
      (info.finds_modules? hroom).imp fun _ hpart list hmem => (hpart.2 list hmem).2.2
  apply hlist.bind_quiet
  intro list? hfits
  refine Visits.optional fun list hmem => ?_
  apply Visits.first (Visits.log _ _ _)
  apply (Visits.look report.memory).bind_quiet
  rintro _ ⟨grid, rfl⟩
  exact (visits_modules (m := report.memory.showing grid) hroom list.remaining list rfl
    (hfits list hmem)).of_covers hcovers

theorem follows_of_covers : Follows report .none where
  commandLine := visits_part?_of_covers hcovers fun info _ =>
    (info.finds_commandLine? hroom).imp fun _ _ => trivial
  commandLineBlock := visits_part?_of_covers hcovers fun info _ =>
    (info.finds_commandLineBlock? hroom).imp fun _ _ => trivial
  bootLoaderName := visits_part?_of_covers hcovers fun info _ =>
    (info.finds_bootLoaderNameBlock? hroom).imp fun _ _ => trivial
  modules := visits_modulesStage_of_covers hroom hcovers
  memoryMap := visits_part?_of_covers hcovers fun info _ =>
    (info.finds_memoryMap? hroom).imp fun _ hpart => hpart.2

end

end Boot

end EarlyBoot
