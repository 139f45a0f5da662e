import EarlyBoot.Proofs.Boot.Course
import EarlyBoot.Proofs.Boot.Outcome

/-!
What the filter has to do with a boot. A boot asks the filter in force before it makes a record,
and changes the filter once, to the one on the command line. Nothing depends on the answers but
what is sent: under every filter the boot has the same records to make, and the filter only decides
which of them are made and sent.
-/

namespace EarlyBoot.Boot

/-- An action that leaves the filter alone. What it adds to the journal, together with its value
if it comes to an end, is of this kind. -/
def LeavesFilter {α : Type} (kind : List Entry → α → Prop) (action : Boot Journal α) : Prop :=
  ∀ (before : Run Journal) (outcome : Except Fault α) (after : Run Journal),
    action.run.run before = (outcome, after) → ∃ added : List Entry,
      after.log = before.log ++ added.toArray ∧ Steady added ∧
      ∀ value, outcome = .ok value → kind added value

namespace LeavesFilter

variable {α β : Type} {kind : List Entry → α → Prop} {kind' : List Entry → β → Prop}

theorem pure {value : α} (h : kind [] value) : LeavesFilter kind (Pure.pure value) := by
  intro before outcome after hrun
  cases hrun
  refine ⟨[], by simp, List.forall_mem_nil _, ?_⟩
  rintro found ⟨rfl⟩
  exact h

theorem bind {x : Boot Journal α} {f : α → Boot Journal β} (hx : LeavesFilter kind x)
    (hf : ∀ first value, kind first value →
      LeavesFilter (fun rest result => kind' (first ++ rest) result) (f value)) :
    LeavesFilter kind' (x >>= f) := by
  intro before outcome after hrun
  cases hfirst : x.run.run before with
  | mk found middle =>
      obtain ⟨first, hjournal, hsteady, hkind⟩ := hx before found middle hfirst
      cases found with
      | error fault =>
          rw [run_bind_of_error hfirst] at hrun
          cases hrun
          exact ⟨first, hjournal, hsteady, fun _ hok => nomatch hok⟩
      | ok value =>
          rw [run_bind_of_ok hfirst] at hrun
          obtain ⟨rest, hlater, hrest, hresult⟩ :=
            hf first value (hkind value rfl) middle outcome after hrun
          refine ⟨first ++ rest, ?_, steady_append.mpr ⟨hsteady, hrest⟩, hresult⟩
          simp [hlater, hjournal]

theorem imp {x : Boot Journal α} (hx : LeavesFilter kind x) {other : List Entry → α → Prop}
    (h : ∀ added value, kind added value → other added value) : LeavesFilter other x := by
  intro before outcome after hrun
  obtain ⟨added, hjournal, hsteady, hkind⟩ := hx before outcome after hrun
  exact ⟨added, hjournal, hsteady, fun value hok => h added value (hkind value hok)⟩

/-- An entry that the second of two actions makes, or the first one. -/
theorem mem_of_second {entry : Entry} {x : Boot Journal α} {f : α → Boot Journal β}
    (hx : LeavesFilter (fun _ _ => True) x)
    (hf : ∀ value, LeavesFilter (fun added _ => entry ∈ added) (f value)) :
    LeavesFilter (fun added _ => entry ∈ added) (x >>= f) :=
  hx.bind fun _ value _ => (hf value).imp fun _ _ hmem => List.mem_append_right _ hmem

theorem mem_of_first {entry : Entry} {x : Boot Journal α} {f : α → Boot Journal β}
    (hx : LeavesFilter (fun added _ => entry ∈ added) x)
    (hf : ∀ value, LeavesFilter (fun _ _ => True) (f value)) :
    LeavesFilter (fun added _ => entry ∈ added) (x >>= f) :=
  hx.bind fun _ value hmem => (hf value).imp fun _ _ _ => List.mem_append_left _ hmem

theorem orStop {x : Except Fault α} (h : ∀ value, x = .ok value → kind [] value) :
    LeavesFilter kind (orStop x) := by
  cases x with
  | error fault =>
      intro before outcome after hrun
      cases hrun
      exact ⟨[], by simp, List.forall_mem_nil _, fun _ hok => nomatch hok⟩
  | ok value => exact pure (h value rfl)

theorem perform (operation : Console.Operation) {kind : List Entry → Unit → Prop}
    (h : kind [] ()) : LeavesFilter kind (perform operation) := by
  intro before outcome after hrun
  rw [run_perform] at hrun
  refine ⟨[], ?_, List.forall_mem_nil _, fun _ _ => h⟩
  rw [Array.append_empty]
  split at hrun
  · cases hrun
    rfl
  · cases hrun
    rfl

/-- An entry for a record, whatever it takes to make it. -/
theorem offer {level : LogLevel} {entry : Boot Journal Entry} {kind : List Entry → Unit → Prop}
    (h : LeavesFilter
      (fun added found => added = [] ∧ found.filter? = none ∧ kind [found] ()) entry) :
    LeavesFilter kind (offer level entry) := by
  have hnote (found : Entry) (hfilter : found.filter? = none) :
      LeavesFilter (fun added _ => added = [found]) (note found) := by
    intro before outcome after hrun
    cases hrun
    exact ⟨[found], Array.push_eq_append, List.forall_mem_singleton.mpr hfilter, fun _ _ => rfl⟩
  refine h.bind ?_
  rintro _ found ⟨rfl, hfilter, hkind⟩
  refine (hnote found hfilter).imp ?_
  rintro _ _ rfl
  exact hkind

theorem logMade {level : LogLevel} {target : String} {message : Boot Journal String}
    {kind : List Entry → Unit → Prop}
    (h : LeavesFilter
      (fun added text => added = [] ∧ kind [.record ⟨level, target, text⟩] ()) message) :
    LeavesFilter kind (logMade level target message) := by
  refine offer (h.bind ?_)
  rintro _ text ⟨rfl, hkind⟩
  exact pure ⟨rfl, rfl, hkind⟩

theorem submit (r : LogRecord) :
    LeavesFilter (fun added _ => added = [.record r]) (submit r) :=
  offer (pure ⟨rfl, rfl, rfl⟩)

theorem look (m : LoadedMemory) :
    LeavesFilter (fun added now => added = [] ∧ ∃ grid, now = m.showing grid) (look m) := by
  intro before outcome after hrun
  cases hrun
  refine ⟨[], by simp, List.forall_mem_nil _, ?_⟩
  rintro now ⟨rfl⟩
  exact ⟨rfl, before.console.grid, rfl⟩

/-- Whatever a part of the report turns out to be, to have looked at it changes nothing. -/
theorem part? (report : LoaderReport)
    (part : InfoRecord → MappedMemory → Except Fault (Option α)) :
    LeavesFilter (fun added value => added = [] ∧ ∃ grid,
        part (.readAt (report.memory.showing grid).memory report.record.toNat)
          (report.memory.showing grid) = .ok value)
      (part? report part) := by
  refine (look report.memory).bind ?_
  rintro _ _ ⟨rfl, grid, rfl⟩
  exact orStop fun value hvalue => ⟨rfl, grid, hvalue⟩

theorem noteAll (records : List LogRecord) :
    LeavesFilter (fun added _ => added = records.map .record)
      (records.forM Boot.submit) := by
  induction records with
  | nil => exact pure rfl
  | cons r rest ih =>
      refine (submit r).bind ?_
      rintro _ _ rfl
      refine ih.imp ?_
      rintro _ _ rfl
      rfl

end LeavesFilter

/-- To make a record leaves the journal alone. -/
theorem OnlyReads.leavesFilter {α : Type} {kind : α → Prop} {x : Action α}
    (h : OnlyReads kind x) :
    LeavesFilter (fun added value => added = [] ∧ kind value) (x Journal) := by
  intro before outcome after hrun
  obtain ⟨value, hvalue, hread⟩ := h before.console
  cases (hread Journal before.log before.performed).symm.trans hrun
  refine ⟨[], by simp, List.forall_mem_nil _, ?_⟩
  rintro _ ⟨rfl⟩
  exact ⟨rfl, hvalue⟩

/-- Only a change of the filter makes no record. -/
theorem Entry.filter?_of_level? {entry : Entry} {level : LogLevel}
    (h : entry.level? = some level) : entry.filter? = none := by
  cases entry with
  | record r => rfl
  | entered state => rfl
  | filter next => cases h

theorem compositional_leavesFilter :
    Compositional fun _ x => LeavesFilter (fun _ _ => True) (x Journal) where
  pure _ := .pure trivial
  bind hx hf := hx.bind fun _ value _ => hf value
  orStop _ := .orStop fun _ _ => trivial
  perform operation := .perform operation trivial
  offer hentry := .offer (hentry.leavesFilter.imp fun _ _ h =>
    ⟨h.1, Entry.filter?_of_level? h.2.1, trivial⟩)
  look m := (LeavesFilter.look m).imp fun _ _ _ => trivial

/-- These options are what the tokens on a command line say, and the remarks on the tokens are the
last of these entries. -/
def Reads (m : LoadedMemory) (infoAddress : Address .loader) (added : List Entry)
    (options : Options) : Prop :=
  ∃ grid tokens, (m.showing grid).commandTokens infoAddress = .ok tokens ∧
    options = .ofTokens tokens ∧ (Options.remarks tokens).map .record <:+ added

theorem Reads.behind {m : LoadedMemory} {infoAddress : Address .loader} {added : List Entry}
    {options : Options} (h : Reads m infoAddress added options) (earlier : List Entry) :
    Reads m infoAddress (earlier ++ added) options := by
  obtain ⟨grid, tokens, htokens, hoptions, hremarks⟩ := h
  exact ⟨grid, tokens, htokens, hoptions, hremarks.trans (List.suffix_append earlier added)⟩

namespace LeavesFilter

theorem readOptions {m : LoadedMemory} {infoAddress : Address .loader} {report : LoaderReport}
    (hreport : m.report infoAddress = .ok report) :
    LeavesFilter (Reads m infoAddress) (readOptions report) := by
  obtain ⟨rfl, -⟩ := LoadedMemory.of_report hreport
  refine (part? report _).bind ?_
  rintro _ line ⟨rfl, grid, hline⟩
  have htokens := LoadedMemory.commandTokens_of_line hreport hline
  cases line with
  | none => exact pure ⟨grid, [], htokens, rfl, List.nil_suffix⟩
  | some line =>
      refine (noteAll (Options.remarks (CommandLine.tokens line))).bind ?_
      rintro added _ rfl
      exact pure ⟨grid, CommandLine.tokens line, htokens, rfl, by simp⟩

theorem opening (infoAddress : Address .loader) (m : LoadedMemory) :
    LeavesFilter (fun added result => Reads m infoAddress added result.2)
      (opening infoAddress m) := by
  have hreport : LeavesFilter (fun _ report => m.report infoAddress = .ok report)
      (Boot.orStop (m.report infoAddress)) := orStop fun _ h => h
  apply compositional_leavesFilter.greeting.bind
  intro greeted _ _
  apply hreport.bind
  intro found report hreport
  apply (readOptions hreport).bind
  intro added options hreads
  exact pure (by simpa using (hreads.behind found).behind greeted)

end LeavesFilter

/-- The journal of a boot with the right magic number: either the boot stops before it has its
options, or it changes the filter once, to theirs. -/
theorem journal_of_boot {handoff : Handoff} (hmagic : handoff.magic = Handoff.loaderMagic)
    (m : LoadedMemory) (console : Console) :
    ∃ outcome run, (boot handoff m).run.run ⟨console, (#[] : Journal), #[]⟩ = (outcome, run) ∧
      ((Steady run.log.toList ∧ ∃ fault, outcome = .error fault) ∨
        ∃ added options later,
          run.log.toList = added ++ .filter options.filter :: later ∧
          Steady added ∧ Steady later ∧ Reads m handoff.infoAddress added options) := by
  rw [boot_eq hmagic]
  cases hopening : (opening handoff.infoAddress m).run.run ⟨console, (#[] : Journal), #[]⟩ with
  | mk found middle =>
      obtain ⟨added, hjournal, hadded, hreads⟩ :=
        LeavesFilter.opening handoff.infoAddress m _ found middle hopening
      cases found with
      | error fault =>
          rw [run_bind_of_error hopening]
          refine ⟨_, middle, rfl, .inl ⟨?_, fault, rfl⟩⟩
          simpa [hjournal] using hadded
      | ok result =>
          obtain ⟨report, options⟩ := result
          rw [run_bind_of_ok hopening]
          let configured : Run Journal :=
            { middle with log := middle.log.push (.filter options.filter) }
          have hnote : (note (.filter options.filter)).run.run middle = (.ok (), configured) := rfl
          simp only
          rw [run_bind_of_ok hnote]
          cases hclosing : (closing handoff.infoAddress report options).run.run configured with
          | mk outcome run =>
              obtain ⟨later, hlater, hsteady, -⟩ :=
                compositional_leavesFilter.closing _ _ _ _ outcome run hclosing
              refine ⟨outcome, run, rfl, .inr ⟨added, options, later, ?_, hadded, hsteady,
                hreads _ rfl⟩⟩
              simp [hlater, configured, hjournal]

theorem filter_sublist_of_rank_le {initial raised : LogFilter} (h : initial.rank ≤ raised.rank)
    (records : List LogRecord) :
    (records.filter (·.level.rank ≤ initial.rank)).Sublist
      (records.filter (·.level.rank ≤ raised.rank)) := by
  apply List.monotone_filter_right
  intro r hadmits
  rw [decide_eq_true_iff] at hadmits ⊢
  exact Nat.le_trans hadmits h

/-- The filter decides which records are made and sent, and nothing else. Under every filter a boot
takes the course that its journal shows: it ends alike, its console performs the same operations
and shows the same, and it has the same records to make, one list of them before its options are in
force and one from then on. Those of the first list are sent whose level the filter from before
admits, and those of the second one whose level the filter on the command line admits, all in their
order. So a filter that lets more through only adds records. -/
theorem filter_only_selects_records (handoff : Handoff) (m : LoadedMemory) (console : Console)
    (hmagic : handoff.magic = Handoff.loaderMagic) :
    ∃ (outcome : Except Fault BootState) (run : Run Journal),
      (boot handoff m).run.run ⟨console, #[], #[]⟩ = (outcome, run) ∧
      (∀ initial : LogFilter,
        let inForce := (installed? run.log.toList).getD initial
        let sent := (recordsBefore run.log.toList).filter (·.level.rank ≤ initial.rank) ++
          (recordsBehind run.log.toList).filter (·.level.rank ≤ inForce.rank)
        (boot handoff m).run.run (⟨console, ⟨initial, #[]⟩, #[]⟩ : Run SerialLog) =
            (outcome, ⟨run.console, ⟨inForce, sent.toArray⟩, run.performed⟩) ∧
          ending handoff m console initial =
            ⟨outcome, run.console, run.performed.toList, inForce, sent⟩ ∧
          (ending handoff m console initial).serial = String.join (sent.map LogRecord.line)) ∧
      (match installed? run.log.toList with
        | none => recordsBehind run.log.toList = [] ∧ ∃ fault, outcome = .error fault
        | some configured => ∃ grid tokens,
            (m.showing grid).commandTokens handoff.infoAddress = .ok tokens ∧
            configured = (Options.ofTokens tokens).filter ∧
            Options.remarks tokens <:+ recordsBefore run.log.toList) ∧
      ∀ initial raised : LogFilter, initial.rank ≤ raised.rank →
        (ending handoff m console initial).sent.Sublist
          (ending handoff m console raised).sent := by
  obtain ⟨outcome, run, hrun, hjournal⟩ := journal_of_boot hmagic m console
  have hlog : ∀ initial : LogFilter,
      filterAfter initial run.log.toList = (installed? run.log.toList).getD initial ∧
      emitted initial run.log.toList =
        (recordsBefore run.log.toList).filter (·.level.rank ≤ initial.rank) ++
          (recordsBehind run.log.toList).filter
            (·.level.rank ≤ ((installed? run.log.toList).getD initial).rank) := by
    intro initial
    rcases hjournal with ⟨hsteady, -⟩ | ⟨added, options, later, hlist, hadded, hlater, -⟩
    · rw [hsteady.filterAfter, hsteady.emitted, hsteady.installed?, hsteady.recordsBefore,
        hsteady.recordsBehind]
      exact ⟨rfl, (List.append_nil _).symm⟩
    · rw [hlist, filterAfter_of_single hlater, emitted_of_single hadded hlater,
        installed?_of_single hadded]
      exact ⟨rfl, rfl⟩
  have hending (initial : LogFilter) := ending_of_journal hrun initial
  refine ⟨outcome, run, hrun, fun initial => ⟨?_, ?_, ?_⟩, ?_, ?_⟩
  · rw [(impartial_boot handoff m).run_of_journal hrun, (hlog initial).1, (hlog initial).2]
  · rw [hending, (hlog initial).1, (hlog initial).2]
  · rw [hending, (hlog initial).2]
    rfl
  · rcases hjournal with ⟨hsteady, hfault⟩ | ⟨added, options, later, hlist, hadded, -, hreads⟩
    · rw [hsteady.installed?]
      exact ⟨hsteady.recordsBehind, hfault⟩
    · obtain ⟨grid, tokens, htokens, rfl, front, hremarks⟩ := hreads
      rw [hlist, installed?_of_single hadded, recordsBefore_of_single hadded]
      refine ⟨grid, tokens, htokens, rfl, front.filterMap Entry.record?, ?_⟩
      rw [← hremarks, List.filterMap_append, List.filterMap_map]
      congr 1
      exact List.filterMap_some.symm
  · intro initial raised hrank
    rw [hending, hending]
    simp only [(hlog initial).2, (hlog raised).2]
    refine (filter_sublist_of_rank_le hrank _).append ?_
    rcases hjournal with ⟨hsteady, -⟩ | ⟨added, options, later, hlist, hadded, -, -⟩
    · rw [hsteady.recordsBehind]
      exact List.nil_sublist _
    · rw [hlist, installed?_of_single hadded]
      exact List.Sublist.refl _

/-- A report on a command line that asks for nothing but warnings and errors. -/
def quietReport : LoadedMemory where
  memory :=
    { byteAt := fun a =>
        if a < 0x40 then
          match a with
          | 0 => 0x04
          | 16 => 0x40
          | _ => 0
        else (Bytes.ofText "loglevel=warn").getD (a - 0x40) 0 }
  mapping := .identity

theorem filter_of_quietReport :
    let handoff : Handoff := ⟨Handoff.loaderMagic, .ofWord 0⟩
    let console := Console.new (.filled (.blank .default))
    handoff.magic = Handoff.loaderMagic ∧
    ∃ run, (boot handoff quietReport).run.run ⟨console, (#[] : Journal), #[]⟩ = (.ok .idle, run) ∧
      ∀ initial : LogFilter, ending handoff quietReport console initial =
        ⟨.ok .idle, run.console, run.performed.toList, .upTo .warn,
          (recordsBefore run.log.toList).filter (·.level.rank ≤ initial.rank) ++
            (recordsBehind run.log.toList).filter (·.level.rank ≤ 2)⟩ := by
  intro handoff console
  have htokens (grid : Grid) : (quietReport.showing grid).commandTokens (.ofWord 0) =
      .ok [.option Options.logLevelName (Bytes.ofText "warn")] := by
    change quietReport.apart.commandTokens (.ofWord 0) = _
    decide +kernel
  have hconfigured : (Options.ofTokens
      [.option Options.logLevelName (Bytes.ofText "warn")]).filter = .upTo .warn := by
    decide +kernel
  have hmapped : quietReport.mapping.firstUnmapped?
      (quietReport.apart.bootLookups handoff.infoAddress) = none := by
    decide +kernel
  obtain ⟨run, hrun⟩ := exists_run_of_mapped handoff quietReport ⟨console, #[], #[]⟩ rfl
    (by decide) (LoadedMemory.keepsReport_of_no_screen rfl _) hmapped (Console.clear_wellPlaced _)
  obtain ⟨outcome, found, hfound, hending, hinstalled, -⟩ :=
    filter_only_selects_records handoff quietReport console rfl
  cases hrun.symm.trans hfound
  refine ⟨rfl, run, hrun, fun initial => ?_⟩
  rw [(hending initial).2.1]
  cases hconfiguredOf : installed? run.log.toList with
  | none =>
      rw [hconfiguredOf] at hinstalled
      obtain ⟨-, fault, hfault⟩ := hinstalled
      cases hfault
  | some configured =>
      rw [hconfiguredOf] at hinstalled
      obtain ⟨grid, tokens, htokensOf, rfl, -⟩ := hinstalled
      cases (htokens grid).symm.trans htokensOf
      rw [hconfigured]
      rfl

end EarlyBoot.Boot
