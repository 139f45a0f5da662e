import EarlyBoot.Proofs.Boot.Composition
import EarlyBoot.Proofs.Console.Page

/-!
The course of a boot. A program that asks whether a record is wanted could behave differently when
it is not; a boot does not. Whoever keeps its log, it takes the same course: it performs the same
operations, comes up with the same entries and ends alike. So the journal shows the boot that the
serial line sees a part of.
-/

namespace EarlyBoot.Boot

/-- What an action does from its first step to its last one. -/
structure Course (α : Type) where
  outcome : Except Fault α
  operations : List Console.Operation
  /-- What it has for the log, wanted or not. -/
  entries : List Entry

/-- From a console the action takes this course and leaves that console, whoever keeps the log. All
that it has for the log is on one line. -/
structure Takes {α : Type} (x : Action α) (before : Console) (course : Course α)
    (after : Console) : Prop where
  plays : before.play course.operations = .ok after
  onOneLine : ∀ entry ∈ course.entries, entry.OnOneLine
  run : ∀ (σ : Type) [Sink σ] (log : σ) (performed : Array Console.Operation),
    (x σ).run.run ⟨before, log, performed⟩ =
      (course.outcome,
        ⟨after, course.entries.foldl hear log, performed ++ course.operations.toArray⟩)

/-- An action that takes one course from each console. -/
def Impartial {α : Type} (x : Action α) : Prop :=
  ∀ before, ∃ course after, Takes x before course after

namespace Takes

variable {α β : Type} {before middle after : Console}

/-- An action that leaves everything as it is. -/
theorem still {x : Action α} {outcome : Except Fault α}
    (h : ∀ (σ : Type) [Sink σ] (log : σ) (performed : Array Console.Operation),
      (x σ).run.run ⟨before, log, performed⟩ = (outcome, ⟨before, log, performed⟩)) :
    Takes x before ⟨outcome, [], []⟩ before where
  plays := rfl
  onOneLine := List.forall_mem_nil _
  run σ _ log performed := by
    rw [h]
    simp

theorem bind_of_error {x : Action α} {operations : List Console.Operation}
    {entries : List Entry} {fault : Fault}
    (hx : Takes x before ⟨.error fault, operations, entries⟩ after) (f : α → Action β) :
    Takes (fun σ => x σ >>= fun value => f value σ) before ⟨.error fault, operations, entries⟩
      after where
  plays := hx.plays
  onOneLine := hx.onOneLine
  run σ _ log performed := run_bind_of_error (hx.run σ log performed) _

theorem bind_of_ok {x : Action α} {f : α → Action β} {operations : List Console.Operation}
    {entries : List Entry} {value : α} {rest : Course β}
    (hx : Takes x before ⟨.ok value, operations, entries⟩ middle)
    (hf : Takes (f value) middle rest after) :
    Takes (fun σ => x σ >>= fun value => f value σ) before
      ⟨rest.outcome, operations ++ rest.operations, entries ++ rest.entries⟩ after where
  plays := by
    rw [Console.play_append, hx.plays]
    exact hf.plays
  onOneLine := List.forall_mem_append.mpr ⟨hx.onOneLine, hf.onOneLine⟩
  run σ _ log performed := by
    rw [run_bind_of_ok (hx.run σ log performed), hf.run]
    simp

end Takes

theorem Impartial.bind {α β : Type} {x : Action α} {f : α → Action β} (hx : Impartial x)
    (hf : ∀ value, Impartial (f value)) : Impartial fun σ => x σ >>= fun value => f value σ := by
  intro before
  obtain ⟨⟨outcome, operations, entries⟩, middle, hx⟩ := hx before
  cases outcome with
  | error fault => exact ⟨_, middle, hx.bind_of_error f⟩
  | ok value =>
      obtain ⟨rest, after, hf⟩ := hf value middle
      exact ⟨_, after, hx.bind_of_ok hf⟩

theorem impartial_perform (operation : Console.Operation) :
    Impartial fun _ => perform operation := by
  intro before
  cases hperform : before.perform operation with
  | error fault =>
      refine ⟨⟨.error fault, [], []⟩, before, Takes.still fun σ _ log performed => ?_⟩
      rw [run_perform, hperform]
  | ok answer =>
      refine ⟨⟨.ok (), [operation], []⟩, answer.2, ?_, List.forall_mem_nil _,
        fun σ _ log performed => ?_⟩
      · rw [Console.play_cons, hperform]
        rfl
      · rw [run_perform, hperform]
        simp

/-- A record that is not wanted leaves no trace, since to make it would leave none. -/
theorem impartial_offer {level : LogLevel} {entry : Action Entry}
    (hentry : OnlyReads (fun found => found.level? = some level ∧ found.OnOneLine) entry) :
    Impartial fun σ => offer level (entry σ) := by
  intro before
  obtain ⟨found, ⟨hlevel, hline⟩, hread⟩ := hentry before
  refine ⟨⟨.ok (), [], [found]⟩, before, rfl, List.forall_mem_singleton.mpr hline,
    fun σ _ log performed => ?_⟩
  have hheard : hear log found =
      if Sink.admits log level then Sink.take log found else log := by
    rw [hear, hlevel]
    rfl
  simp only [List.foldl_cons, List.foldl_nil, hheard, Array.append_empty]
  cases hadmits : Sink.admits log level with
  | false => exact run_offer_of_refuses hadmits _
  | true => exact (run_offer_of_admits hadmits _).trans (run_bind_of_ok (hread σ log performed) _)

theorem impartial_changeFilter (filter : LogFilter) :
    Impartial fun _ => note (.filter filter) :=
  fun before => ⟨⟨.ok (), [], [.filter filter]⟩, before, rfl,
    List.forall_mem_singleton.mpr nofun, fun _ _ _ _ => by simp; rfl⟩

theorem compositional_impartial : Compositional fun _ x => Impartial x where
  pure value := fun before => ⟨_, before, .still fun _ _ _ _ => rfl⟩
  bind hx hf := hx.bind hf
  orStop x := by
    intro before
    cases x with
    | error fault => exact ⟨_, before, .still fun _ _ _ _ => rfl⟩
    | ok value => exact ⟨_, before, .still fun _ _ _ _ => rfl⟩
  perform := impartial_perform
  offer := impartial_offer
  look m := fun before =>
    ⟨⟨.ok (m.showing before.grid), [], []⟩, before, .still fun _ _ _ _ => rfl⟩

/-- What the journal shows of an action is its course. -/
theorem Impartial.exists_course {α : Type} {x : Action α} (h : Impartial x)
    {before after : Run Journal} {outcome : Except Fault α}
    (hrun : (x Journal).run.run before = (outcome, after)) :
    ∃ course : Course α, Takes x before.console course after.console ∧
      course.outcome = outcome ∧ after.log = before.log ++ course.entries.toArray ∧
      after.performed = before.performed ++ course.operations.toArray := by
  obtain ⟨course, console, hcourse⟩ := h before.console
  cases (hcourse.run Journal before.log before.performed).symm.trans hrun
  exact ⟨course, hcourse, rfl, foldl_hear_journal _ _, rfl⟩

/-- The serial line gets what the filter admits of the records in the journal, as long as nobody
changes the filter. -/
theorem Impartial.run_of_steady {α : Type} {x : Action α} (h : Impartial x)
    {before after : Run Journal} {outcome : Except Fault α} {added : List Entry}
    (hrun : (x Journal).run.run before = (outcome, after))
    (hlog : after.log = before.log ++ added.toArray) (hsteady : Steady added)
    (log : SerialLog) :
    (x SerialLog).run.run ⟨before.console, log, before.performed⟩ =
      (outcome, ⟨after.console, ⟨log.filter, log.sent ++
        ((added.filterMap Entry.record?).filter (log.filter.admits ·.level)).toArray⟩,
        after.performed⟩) := by
  obtain ⟨course, hcourse, rfl, hentries, hoperations⟩ := h.exists_course hrun
  have hsame : course.entries = added :=
    List.toArray_inj ((Array.append_right_inj before.log).mp (hentries.symm.trans hlog))
  refine (hcourse.run SerialLog log before.performed).trans ?_
  rw [foldl_hear_serialLog, hsame, hsteady.filterAfter, hsteady.emitted, hoperations]

/-- What the journal shows of an action, with the log on the serial line: of the journal, the
filter in force and the records that it lets through are left. -/
theorem Impartial.run_of_journal {α : Type} {x : Action α} (h : Impartial x) {console : Console}
    {outcome : Except Fault α} {run : Run Journal}
    (hrun : (x Journal).run.run ⟨console, #[], #[]⟩ = (outcome, run)) (filter : LogFilter) :
    (x SerialLog).run.run ⟨console, ⟨filter, #[]⟩, #[]⟩ =
      (outcome, ⟨run.console,
        ⟨filterAfter filter run.log.toList, (emitted filter run.log.toList).toArray⟩,
        run.performed⟩) := by
  obtain ⟨course, hcourse, rfl, hentries, hoperations⟩ := h.exists_course hrun
  refine (hcourse.run SerialLog ⟨filter, #[]⟩ #[]).trans ?_
  rw [foldl_hear_serialLog, hentries, hoperations]
  simp

theorem impartial_boot (handoff : Handoff) (m : LoadedMemory) :
    Impartial fun _ => boot handoff m :=
  compositional_impartial.boot impartial_changeFilter handoff m

theorem ending_of_journal {handoff : Handoff} {m : LoadedMemory} {console : Console}
    {outcome : Except Fault BootState} {run : Run Journal}
    (h : (boot handoff m).run.run ⟨console, #[], #[]⟩ = (outcome, run)) (filter : LogFilter) :
    ending handoff m console filter =
      ⟨outcome, run.console, run.performed.toList, filterAfter filter run.log.toList,
        emitted filter run.log.toList⟩ :=
  ending_of_run ((impartial_boot handoff m).run_of_journal h filter)

/-- What the console shows in the end is what it has performed. -/
theorem play_performed (handoff : Handoff) (m : LoadedMemory) (console : Console)
    (filter : LogFilter) :
    console.play (ending handoff m console filter).performed =
      .ok (ending handoff m console filter).console := by
  obtain ⟨course, after, hcourse⟩ := impartial_boot handoff m console
  have hrun := hcourse.run SerialLog ⟨filter, #[]⟩ #[]
  rw [ending_of_run hrun]
  simpa using hcourse.plays

end EarlyBoot.Boot
