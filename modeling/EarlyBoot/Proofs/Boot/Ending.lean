import Mathlib.Data.List.TakeWhile
import EarlyBoot.Boot.Sequence

/-!
What others see of a boot: how it ends, what the console has performed and shows, which filter is
in force and which records were sent. Records are sent while they are made, so each one meets the
filter of its moment; in a stretch of the journal without a change of the filter they all meet the
same one.
-/

namespace EarlyBoot.Boot

structure Ending where
  outcome : Except Fault BootState
  console : Console
  /-- The operations that the console has performed. -/
  performed : List Console.Operation
  filter : LogFilter
  /-- The records that went over the serial line, in their order. -/
  sent : List LogRecord

/-- The text on the serial line. -/
def Ending.serial (e : Ending) : String :=
  LogRecord.lines e.sent

/-- A boot from a console and a filter that are there before it, with its log on the serial line. -/
def ending (handoff : Handoff) (m : LoadedMemory) (console : Console) (filter : LogFilter) :
    Ending :=
  let before : Run SerialLog := { console := console, log := { filter := filter } }
  let (outcome, run) := (boot handoff m).run.run before
  { outcome := outcome
    console := run.console
    performed := run.performed.toList
    filter := run.log.filter
    sent := run.log.sent.toList }

theorem ending_of_run {handoff : Handoff} {m : LoadedMemory} {console : Console}
    {filter : LogFilter} {outcome : Except Fault BootState} {run : Run SerialLog}
    (h : (boot handoff m).run.run ⟨console, ⟨filter, #[]⟩, #[]⟩ = (outcome, run)) :
    ending handoff m console filter =
      ⟨outcome, run.console, run.performed.toList, run.log.filter, run.log.sent.toList⟩ := by
  rw [ending, h]

/-- The level of the record for an entry. -/
def Entry.level? (entry : Entry) : Option LogLevel :=
  entry.record?.map (·.level)

/-- What becomes of a log when an entry comes up: the entry is taken, unless its record is not
wanted. -/
def hear {σ : Type} [Sink σ] (log : σ) (entry : Entry) : σ :=
  if entry.level?.all (Sink.admits log) then Sink.take log entry else log

theorem filterAfter_append (filter : LogFilter) (xs ys : List Entry) :
    filterAfter filter (xs ++ ys) = filterAfter (filterAfter filter xs) ys :=
  List.foldl_append

theorem emitted_append (filter : LogFilter) (xs ys : List Entry) :
    emitted filter (xs ++ ys) = emitted filter xs ++ emitted (filterAfter filter xs) ys := by
  induction xs generalizing filter with
  | nil => rfl
  | cons entry rest ih =>
      simp only [List.cons_append, emitted, ih, List.append_assoc]
      rw [← filterAfter_append, List.singleton_append]

/-- The journal hears everything. -/
theorem foldl_hear_journal (journal : Journal) (entries : List Entry) :
    entries.foldl hear journal = journal ++ entries.toArray := by
  induction entries generalizing journal with
  | nil => exact (Array.append_empty).symm
  | cons entry rest ih =>
      have hall : entry.level?.all (fun _ => true) = true := by cases entry.level? <;> rfl
      have hentry : hear journal entry = journal.push entry := if_pos hall
      rw [List.foldl_cons, hentry, ih]
      simp

theorem hear_serialLog (log : SerialLog) (entry : Entry) :
    hear log entry =
      ⟨filterAfter log.filter [entry], log.sent ++ (emitted log.filter [entry]).toArray⟩ := by
  have hsend (r : LogRecord) : (if log.filter.admits r.level then log.send r else log) =
      ⟨log.filter, log.sent ++
        ((some r).filter (log.filter.admits ·.level)).toList.toArray⟩ := by
    cases hadmits : log.filter.admits r.level <;> simp [SerialLog.send, hadmits, Option.filter]
  rw [emitted, emitted, List.append_nil]
  cases entry with
  | record r => exact hsend r
  | entered state => exact hsend ⟨.debug, logTarget, "boot state " ++ state.name⟩
  | filter next => exact congrArg (SerialLog.mk next) Array.append_empty.symm

/-- The serial line gets what the filter in force lets through. -/
theorem foldl_hear_serialLog (log : SerialLog) (entries : List Entry) :
    entries.foldl hear log =
      ⟨filterAfter log.filter entries, log.sent ++ (emitted log.filter entries).toArray⟩ := by
  induction entries generalizing log with
  | nil => exact congrArg (SerialLog.mk log.filter) Array.append_empty.symm
  | cons entry rest ih =>
      have hrest := filterAfter_append log.filter [entry] rest
      have hsent := emitted_append log.filter [entry] rest
      rw [List.singleton_append] at hrest hsent
      rw [List.foldl_cons, hear_serialLog, ih, hrest, hsent]
      simp only [Array.append_assoc, List.append_toArray]

/-- The filter that an entry puts in force. -/
def Entry.filter? : Entry → Option LogFilter
  | .filter next => some next
  | _ => none

/-- The first filter that is put in force. -/
def installed? (journal : List Entry) : Option LogFilter :=
  journal.findSome? Entry.filter?

/-- The records that are made before the first change of the filter. -/
def recordsBefore (journal : List Entry) : List LogRecord :=
  (journal.takeWhile (·.filter?.isNone)).filterMap Entry.record?

/-- The records that are made from the first change of the filter on. -/
def recordsBehind (journal : List Entry) : List LogRecord :=
  (journal.dropWhile (·.filter?.isNone)).filterMap Entry.record?

/-- A stretch of the journal in which the filter is never changed. -/
def Steady (journal : List Entry) : Prop :=
  ∀ entry ∈ journal, entry.filter? = none

theorem steady_append {xs ys : List Entry} : Steady (xs ++ ys) ↔ Steady xs ∧ Steady ys :=
  List.forall_mem_append

section

variable {entries : List Entry} (h : Steady entries) (filter : LogFilter)

include h

theorem Steady.filterAfter : filterAfter filter entries = filter := by
  induction entries with
  | nil => rfl
  | cons entry rest ih =>
      obtain ⟨hentry, hrest⟩ := List.forall_mem_cons.mp h
      cases entry with
      | record r => exact ih hrest
      | entered state => exact ih hrest
      | filter next => cases hentry

theorem Steady.emitted :
    emitted filter entries = (entries.filterMap Entry.record?).filter (filter.admits ·.level) := by
  induction entries with
  | nil => rfl
  | cons entry rest ih =>
      obtain ⟨hentry, hrest⟩ := List.forall_mem_cons.mp h
      have hsingle : Steady [entry] := List.forall_mem_singleton.mpr hentry
      rw [Boot.emitted, hsingle.filterAfter, ih hrest, List.filterMap_cons]
      cases entry.record? with
      | none => rfl
      | some r => cases hadmits : filter.admits r.level <;> simp [hadmits, Option.filter]

theorem Steady.installed? : installed? entries = none :=
  List.findSome?_eq_none_iff.mpr h

theorem Steady.recordsBefore : recordsBefore entries = entries.filterMap Entry.record? := by
  have hall : entries.takeWhile (·.filter?.isNone) = entries :=
    List.takeWhile_eq_self_iff.mpr fun entry hentry =>
      Option.isNone_iff_eq_none.mpr (h entry hentry)
  rw [Boot.recordsBefore, hall]

theorem Steady.recordsBehind : recordsBehind entries = [] := by
  have hall : entries.dropWhile (·.filter?.isNone) = [] :=
    List.dropWhile_eq_nil_iff.mpr fun entry hentry => Option.isNone_iff_eq_none.mpr (h entry hentry)
  rw [Boot.recordsBehind, hall, List.filterMap_nil]

end

section

variable {entries later : List Entry} (h : Steady entries) (hlater : Steady later)
  (configured filter : LogFilter)

include h

theorem installed?_of_single :
    installed? (entries ++ .filter configured :: later) = some configured := by
  rw [installed?, List.findSome?_append, ← installed?, h.installed?, Option.none_or]
  rfl

theorem recordsBefore_of_single : recordsBefore (entries ++ .filter configured :: later) =
    entries.filterMap Entry.record? := by
  have hall : ∀ entry ∈ entries, entry.filter?.isNone := fun entry hentry =>
    Option.isNone_iff_eq_none.mpr (h entry hentry)
  rw [recordsBefore, List.takeWhile_append_of_pos hall]
  simp [Entry.filter?]

theorem recordsBehind_of_single : recordsBehind (entries ++ .filter configured :: later) =
    later.filterMap Entry.record? := by
  have hall : ∀ entry ∈ entries, entry.filter?.isNone := fun entry hentry =>
    Option.isNone_iff_eq_none.mpr (h entry hentry)
  rw [recordsBehind, List.dropWhile_append_of_pos hall]
  exact List.filterMap_cons_none rfl

include hlater

/-- With one change of the filter, the records before it meet the old filter and the records
behind it the new one. -/
theorem emitted_of_single : emitted filter (entries ++ .filter configured :: later) =
    (recordsBefore (entries ++ .filter configured :: later)).filter (filter.admits ·.level) ++
      (recordsBehind (entries ++ .filter configured :: later)).filter
        (configured.admits ·.level) := by
  rw [recordsBefore_of_single h, recordsBehind_of_single h, emitted_append, h.emitted,
    ← hlater.emitted]
  rfl

end

theorem filterAfter_of_single {later : List Entry} (hlater : Steady later) (entries : List Entry)
    (configured filter : LogFilter) :
    filterAfter filter (entries ++ .filter configured :: later) = configured := by
  rw [filterAfter_append]
  exact hlater.filterAfter configured

end EarlyBoot.Boot
