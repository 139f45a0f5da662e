import EarlyBoot.Fault.Message
import EarlyBoot.Proofs.Boot.Course
import EarlyBoot.Proofs.Boot.Route

/-!
How a boot ends. A hand-off with the right magic number leads through the loader's report, and
the only thing that can stop the boot there is an address that the mapping does not cover. Any other
hand-off leads past the report, and nothing can stop the boot.
-/

namespace EarlyBoot

def MappedMemory.infoAt (m : MappedMemory) (address : Address .loader) : InfoRecord :=
  .readAt m.memory (m.mapping.place address)

namespace LoadedMemory

/-- The record at an address and its module table do not lie on the screen: whatever it shows,
they are the same. A boot reads them as if nobody wrote to them, and here nobody does. -/
structure KeepsReport (m : LoadedMemory) (address : Address .loader) : Prop where
  record : ∀ grid, (m.showing grid).infoAt address = m.apart.infoAt address
  modules : ∀ grid, ∀ i < (m.apart.infoAt address).modulesCount.toNat,
    let entry := m.mapping.place (.ofWord (m.apart.infoAt address).modulesAddress) + 16 * i
    (m.showing grid).memory.word32 (entry + 8) = m.memory.word32 (entry + 8)

theorem KeepsReport.readAt {m : LoadedMemory} {address : Address .loader}
    (h : m.KeepsReport address) {record : Address .virtual}
    (hrecord : record.toNat = m.mapping.place address) (grid : Grid) :
    InfoRecord.readAt (m.showing grid).memory record.toNat = m.apart.infoAt address := by
  rw [hrecord]
  exact h.record grid

/-- A screen that is no part of the memory changes nothing in it. -/
theorem showing_of_no_screen {m : LoadedMemory} (h : m.screen = none) (grid : Grid) :
    m.showing grid = m.apart := by
  simp only [showing, apart, h]

theorem keepsReport_of_no_screen {m : LoadedMemory} (h : m.screen = none)
    (address : Address .loader) : m.KeepsReport address := by
  constructor
  · intro grid
    rw [showing_of_no_screen h]
  · intro grid i _
    rw [showing_of_no_screen h]
    rfl

end LoadedMemory

namespace MappedMemory

variable (m : MappedMemory) (infoAddress : Address .loader)

/-- The addresses that a boot has to find before it sets up the subsystems, in their order. -/
def lookupsBeforeSetUp : List (Address .loader) :=
  let info := m.infoAt infoAddress
  infoAddress :: (info.lookups .commandLine (stringLookups info.commandLine) ++
    (info.lookups .bootLoaderName (stringLookups info.bootLoaderName) ++ info.modulesLookups m))

/-- The addresses that a boot has to find while it sets up the subsystems. -/
def lookupsOfSetUp : List (Address .loader) :=
  let info := m.infoAt infoAddress
  info.lookups .memoryMap [.ofWord info.memoryMapAddress]

def bootLookups : List (Address .loader) :=
  m.lookupsBeforeSetUp infoAddress ++ m.lookupsOfSetUp infoAddress

/-- The addresses before the subsystems as the boot comes to them. The command line is looked up
twice: for its options, and to be shown. -/
def lookupsOfReading : List (Address .loader) :=
  infoAddress :: ((m.infoAt infoAddress).lookups .commandLine
      (stringLookups (m.infoAt infoAddress).commandLine) ++
    (m.infoAt infoAddress).reportLookups m)

theorem firstUnmapped?_lookupsOfReading (mapping : DirectMapping) :
    mapping.firstUnmapped? (m.lookupsOfReading infoAddress) =
      mapping.firstUnmapped? (m.lookupsBeforeSetUp infoAddress) := by
  unfold lookupsOfReading lookupsBeforeSetUp
  rw [← List.singleton_append, DirectMapping.firstUnmapped?_append, InfoRecord.reportLookups,
    DirectMapping.firstUnmapped?_again, ← DirectMapping.firstUnmapped?_append,
    List.singleton_append]

end MappedMemory

namespace Boot

section

variable {m : LoadedMemory} {infoAddress : Address .loader} {route : ReportRoute}

theorem finds_report (hroom : m.mapping.LeavesRoom)
    (hroute : ∀ record : Address .virtual, record.toNat = m.mapping.place infoAddress →
      Follows ⟨m, record⟩ route) :
    m.mapping.Finds [infoAddress] (fun report => report.memory = m ∧ Follows report route)
      (m.report infoAddress) := by
  refine (DirectMapping.finds_toVirtual hroom infoAddress).map ?_
  rintro record ⟨hplace, -⟩
  exact ⟨rfl, hroute record hplace⟩

theorem visits_readReport
    (hreport : m.mapping.Finds [infoAddress]
      (fun report => report.memory = m ∧ Follows report route) (m.report infoAddress)) :
    Visits m.mapping ((infoAddress :: route.read).map .address)
      (fun result => result.1.memory = m ∧ Follows result.1 route)
      (readReport infoAddress m) := by
  unfold readReport
  rw [ReportRoute.read, List.map_cons, List.map_append]
  apply (Visits.orStop hreport).bind
  rintro report ⟨rfl, hroute⟩
  apply (visits_readOptions hroute.commandLine).bind
  intro options _
  refine Visits.bind_quiet (Visits.note fun _ h => nomatch h) fun _ _ => ?_
  have hmessage : Visits report.memory.mapping [] (fun _ => True) (do
      return "boot information at " ++ infoAddress.text ++ ": " ++ (← record report).text) :=
    (Visits.record report).bind_quiet fun _ _ => .pure trivial
  apply Visits.first (Visits.logMade _ _ hmessage)
  exact (visits_info hroute options).bind_last fun _ _ => .pure ⟨rfl, hroute⟩

/-- The way of a boot whose report follows a route. -/
theorem visits_boot_of_follows {handoff : Handoff} (hmagic : handoff.magic = Handoff.loaderMagic)
    (hroom : m.mapping.LeavesRoom)
    (hroute : ∀ record : Address .virtual,
      record.toNat = m.mapping.place handoff.infoAddress → Follows ⟨m, record⟩ route) :
    Visits m.mapping
      (.state .booting :: .state .verifying ::
        ((handoff.infoAddress :: route.read).map .address ++ (.state .runningInit ::
          (route.memoryMap.map .address ++ [.state .idle]))))
      (fun state => state = .idle) (boot handoff m) := by
  have hverify : handoff.verify = .ok handoff.infoAddress := if_pos hmagic
  unfold boot
  rw [hverify]
  apply (Visits.enter _).bind
  intro _ _
  apply Visits.first (Visits.setColors _)
  apply Visits.first (Visits.print _)
  apply Visits.first (Visits.print _)
  apply (Visits.enter _).bind
  intro _ _
  unfold proceed
  apply Visits.first (Visits.setColors _)
  apply Visits.first (Visits.print _)
  apply (visits_readReport (finds_report hroom hroute)).bind
  rintro ⟨report, options⟩ ⟨rfl, hfollows⟩
  apply (Visits.enter _).bind
  intro _ _
  apply (visits_setUp hfollows.memoryMap options).bind
  intro _ _
  apply Visits.first (Visits.setColors _)
  apply Visits.first (Visits.print _)
  apply Visits.first (Visits.print _)
  apply Visits.first (Visits.setColors _)
  apply Visits.first (Visits.print _)
  apply Visits.first (Visits.setColors _)
  exact (Visits.enter _).bind_last fun _ _ => .pure rfl

theorem visits_boot {handoff : Handoff} (hroom : m.mapping.LeavesRoom)
    (hmagic : handoff.magic = Handoff.loaderMagic)
    (hkeeps : m.KeepsReport handoff.infoAddress) : Visits m.mapping
      (.state .booting :: .state .verifying ::
        ((m.apart.lookupsOfReading handoff.infoAddress).map .address ++ (.state .runningInit ::
          ((m.apart.lookupsOfSetUp handoff.infoAddress).map .address ++ [.state .idle]))))
      (fun state => state = .idle) (boot handoff m) := by
  have hroute (record : Address .virtual)
      (hrecord : record.toNat = m.mapping.place handoff.infoAddress) :
      Follows ⟨m, record⟩ ((m.apart.infoAt handoff.infoAddress).route m.apart) :=
    follows_of_still (hkeeps.readAt hrecord) hroom fun grid =>
      moduleLookups_congr (hkeeps.modules grid)
  exact visits_boot_of_follows hmagic hroom hroute

end

/-- A rejected hand-off leads past the report. -/
theorem visits_boot_of_wrong_magic {handoff : Handoff}
    (hmagic : handoff.magic ≠ Handoff.loaderMagic) (m : LoadedMemory) :
    Visits m.mapping [.state .booting, .state .verifying, .state .halted]
      (fun state => state = .halted) (boot handoff m) := by
  have hverify : handoff.verify = .error (.invalidMagic handoff.magic) := if_neg hmagic
  have hrejection : Visits m.mapping [] (fun _ => True)
      (rejection (.invalidMagic handoff.magic)) := by
    apply Visits.first (Visits.setColors _)
    apply Visits.first (Visits.print _)
    apply Visits.first (Visits.print _)
    apply Visits.first (Visits.writeHex _)
    apply Visits.first (Visits.print _)
    apply Visits.first (Visits.writeHex _)
    exact Visits.print _
  unfold boot
  rw [hverify]
  apply (Visits.enter _).bind
  intro _ _
  apply Visits.first (Visits.setColors _)
  apply Visits.first (Visits.print _)
  apply Visits.first (Visits.print _)
  apply (Visits.enter _).bind
  intro _ _
  apply Visits.first (Visits.log _ _ _)
  apply hrejection.first
  apply Visits.first (Visits.print _)
  exact (Visits.enter _).bind_last fun _ _ => .pure rfl

/-- The state in which a boot ends that nothing stops. -/
def lastState (handoff : Handoff) : BootState :=
  if handoff.magic = Handoff.loaderMagic then .idle else .halted

/-- Where all addresses of the loader are mapped nothing can stop a boot, not even a report that
the screen reaches into. -/
theorem exists_run_of_covers (handoff : Handoff) (m : LoadedMemory) (before : Run Journal)
    (hroom : m.mapping.LeavesRoom) (hcovers : m.mapping.CoversLoader)
    (hplaced : before.console.WellPlaced) :
    ∃ after, (boot handoff m).run.run before = (.ok (lastState handoff), after) := by
  unfold lastState
  split
  next hmagic =>
    obtain ⟨after, -, -, hrun⟩ := visits_boot_of_follows hmagic hroom
      (fun record _ => follows_of_covers hroom hcovers) before hplaced
    simp only [missing?_append, missing?_state, missing?_addresses, missing?_nil, Option.or_none,
      DirectMapping.firstUnmapped?_of_covers hcovers] at hrun
    obtain ⟨state, rfl, hrun⟩ := hrun
    exact ⟨after, hrun⟩
  next hmagic =>
    obtain ⟨after, -, -, state, rfl, hrun⟩ :=
      visits_boot_of_wrong_magic hmagic m before hplaced
    exact ⟨after, hrun⟩

/-- If all the addresses are mapped, the boot gets to its end. -/
theorem exists_run_of_mapped (handoff : Handoff) (m : LoadedMemory) (before : Run Journal)
    (hmagic : handoff.magic = Handoff.loaderMagic) (hroom : m.mapping.LeavesRoom)
    (hkeeps : m.KeepsReport handoff.infoAddress)
    (hmapped : m.mapping.firstUnmapped? (m.apart.bootLookups handoff.infoAddress) = none)
    (hplaced : before.console.WellPlaced) :
    ∃ after, (boot handoff m).run.run before = (.ok .idle, after) := by
  obtain ⟨after, -, -, hrun⟩ := visits_boot hroom hmagic hkeeps before hplaced
  rw [MappedMemory.bootLookups, DirectMapping.firstUnmapped?_append,
    ← m.apart.firstUnmapped?_lookupsOfReading] at hmapped
  simp only [missing?_append, missing?_state, missing?_addresses, missing?_nil, Option.or_none,
    hmapped] at hrun
  obtain ⟨state, rfl, hrun⟩ := hrun
  exact ⟨after, hrun⟩

/-- However a boot ends in the journal, it ends that way whoever keeps its log. -/
theorem exists_run_of_journal {handoff : Handoff} {m : LoadedMemory} {before after : Run Journal}
    {outcome : Except Fault BootState}
    (hrun : (boot handoff m).run.run before = (outcome, after)) (σ : Type) [Sink σ] (log : σ)
    (performed : Array Console.Operation) :
    ∃ last : Run σ, (boot handoff m).run.run ⟨before.console, log, performed⟩ = (outcome, last) ∧
      last.console = after.console := by
  obtain ⟨course, hcourse, rfl, -⟩ := (impartial_boot handoff m).exists_course hrun
  exact ⟨_, hcourse.run σ log performed, rfl⟩

/-- A boot with the right magic number ends in the idle state if all the addresses that it has to
find are mapped. Otherwise it stops with the fault of the first one that is not, after the states
that come before that address, and it never stops with any other fault. Whoever keeps the log, it
ends alike and shows the same. -/
theorem boot_stops_at_first_unmapped (handoff : Handoff) (m : LoadedMemory) (before : Run Journal)
    (hmagic : handoff.magic = Handoff.loaderMagic) (hroom : m.mapping.LeavesRoom)
    (hkeeps : m.KeepsReport handoff.infoAddress) (hplaced : before.console.WellPlaced) :
    ∃ outcome after, (boot handoff m).run.run before = (outcome, after) ∧
      (∀ (σ : Type) [Sink σ] (log : σ) (performed : Array Console.Operation), ∃ last : Run σ,
        (boot handoff m).run.run ⟨before.console, log, performed⟩ = (outcome, last) ∧
          last.console = after.console) ∧
      match m.mapping.firstUnmapped? (m.apart.bootLookups handoff.infoAddress) with
      | none =>
          outcome = .ok .idle ∧
            after.entered = before.entered ++ [.booting, .verifying, .runningInit, .idle]
      | some a =>
          outcome = .error (.unmapped a.toNat) ∧
            (Fault.unmapped a.toNat).message =
              "[DirectMapping::phys_to_virt] physical address PHYS_"
                ++ Bytes.glyphs (Numeral.prefixedHex 16 a.toNat) ++ " out of bounds" ∧
            after.entered = before.entered ++
              if (m.mapping.firstUnmapped?
                  (m.apart.lookupsBeforeSetUp handoff.infoAddress)).isSome then
                [.booting, .verifying]
              else [.booting, .verifying, .runningInit] := by
  obtain ⟨after, -, hentered, hrun⟩ := visits_boot hroom hmagic hkeeps before hplaced
  have hbefore := m.apart.firstUnmapped?_lookupsOfReading handoff.infoAddress m.mapping
  rw [MappedMemory.bootLookups, DirectMapping.firstUnmapped?_append]
  simp only [missing?_append, missing?_state, missing?_addresses, missing?_nil, hbefore,
    Option.or_none] at hrun
  simp only [reached, reached_append, reached_addresses, missing?_addresses, hbefore] at hentered
  cases hfirst : m.mapping.firstUnmapped? (m.apart.lookupsBeforeSetUp handoff.infoAddress) with
  | some a =>
      rw [hfirst] at hrun hentered
      exact ⟨_, after, hrun, exists_run_of_journal hrun, rfl, rfl, hentered⟩
  | none =>
      rw [hfirst] at hrun hentered
      cases hlast : m.mapping.firstUnmapped? (m.apart.lookupsOfSetUp handoff.infoAddress) with
      | some a =>
          rw [hlast] at hrun hentered
          exact ⟨_, after, hrun, exists_run_of_journal hrun, rfl, rfl, hentered⟩
      | none =>
          rw [hlast] at hrun hentered
          obtain ⟨state, rfl, hrun⟩ := hrun
          exact ⟨_, after, hrun, exists_run_of_journal hrun, rfl, hentered⟩

/-- A report on a command line, the name of the loader, two modules and a memory map. The command
line of the second module lies outside the mapping. -/
def sampleReport : LoadedMemory where
  memory :=
    { byteAt := fun a =>
        match a - 0x10000 with
        | 0x0000 => 0x4C | 0x0001 => 0x02
        | 0x0011 => 0x91 | 0x0014 => 2 | 0x0019 => 0x92
        | 0x0030 => 0x80 | 0x0031 => 0x92 | 0x0041 => 0x91
        | 0x021A => 0x02
        | _ => 0 }
  mapping := ⟨⟨0x10000, by decide⟩, ⟨0x9000, by decide⟩, 0x400⟩

def sampleHandoff : Handoff where
  magic := Handoff.loaderMagic
  infoAddress := .ofWord 0x9000

theorem boot_of_sampleReport :
    let start : Run Journal := ⟨Console.new (.filled (.blank .default)), #[], #[]⟩
    sampleReport.mapping.LeavesRoom ∧ sampleReport.KeepsReport sampleHandoff.infoAddress ∧
    start.console.WellPlaced ∧
    ∃ outcome after, (boot sampleHandoff sampleReport).run.run start = (outcome, after) ∧
      outcome = .error (.unmapped 0x20000) ∧ after.entered = [.booting, .verifying] := by
  intro start
  have hplaced : start.console.WellPlaced := Console.clear_wellPlaced _
  have hroom : sampleReport.mapping.LeavesRoom := by decide
  have hkeeps : sampleReport.KeepsReport sampleHandoff.infoAddress :=
    LoadedMemory.keepsReport_of_no_screen rfl _
  have hfirst : sampleReport.mapping.firstUnmapped?
      (sampleReport.apart.bootLookups sampleHandoff.infoAddress) = some (.ofWord 0x20000) := by
    decide +kernel
  have hbefore : sampleReport.mapping.firstUnmapped?
      (sampleReport.apart.lookupsBeforeSetUp sampleHandoff.infoAddress) =
        some (.ofWord 0x20000) := by
    decide +kernel
  obtain ⟨outcome, after, hrun, -, hend⟩ :=
    boot_stops_at_first_unmapped sampleHandoff sampleReport start rfl hroom hkeeps hplaced
  rw [hfirst] at hend
  obtain ⟨houtcome, -, hentered⟩ := hend
  rw [hbefore] at hentered
  exact ⟨hroom, hkeeps, hplaced, outcome, after, hrun, houtcome, hentered⟩

end Boot

end EarlyBoot
