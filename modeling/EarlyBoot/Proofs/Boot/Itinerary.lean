import EarlyBoot.Proofs.Boot.Stages
import EarlyBoot.Proofs.Console.Safety
import EarlyBoot.Proofs.Loader.Lookups

/-!
What a boot comes to on its way: states that it enters and addresses that it has to find. The
stations of an action decide what the action leaves in the journal as states, and whether it stops
with a fault; the stations of two actions in a row are those of the first and then those of the
second.
-/

namespace EarlyBoot.Boot

/-- The states that a run has entered. -/
def Run.entered (run : Run Journal) : List BootState :=
  run.log.toList.filterMap fun
    | .entered state => some state
    | _ => none

/-- A state to be entered, or an address to be found. -/
inductive Station where
  | state (state : BootState)
  | address (address : Address .loader)

def Station.addresses (stations : List Station) : List (Address .loader) :=
  stations.filterMap fun
    | .state _ => none
    | .address a => some a

/-- The first address among some stations that is not mapped. -/
def missing? (mapping : DirectMapping) (stations : List Station) : Option (Address .loader) :=
  mapping.firstUnmapped? (Station.addresses stations)

/-- The states among some stations, up to the first address that is not mapped. -/
def reached (mapping : DirectMapping) : List Station → List BootState
  | [] => []
  | .state s :: rest => s :: reached mapping rest
  | .address a :: rest => if mapping.contains a.extend then reached mapping rest else []

section

variable {mapping : DirectMapping}

theorem missing?_append (xs ys : List Station) :
    missing? mapping (xs ++ ys) = (missing? mapping xs).or (missing? mapping ys) := by
  simp only [missing?, Station.addresses, List.filterMap_append,
    DirectMapping.firstUnmapped?_append]

theorem missing?_addresses (addresses : List (Address .loader)) :
    missing? mapping (addresses.map .address) = mapping.firstUnmapped? addresses := by
  simp only [missing?, Station.addresses, List.filterMap_map]
  congr 1
  exact List.filterMap_some

/-- Nothing is reached behind an address that is not mapped. -/
theorem reached_append (xs ys : List Station) :
    reached mapping (xs ++ ys) =
      reached mapping xs ++ if (missing? mapping xs).isNone then reached mapping ys else [] := by
  induction xs with
  | nil => rfl
  | cons station rest ih =>
      cases station with
      | state s => exact congrArg (s :: ·) ih
      | address a =>
          by_cases hcontains : mapping.contains a.extend
          · simpa [reached, missing?, Station.addresses, DirectMapping.firstUnmapped?,
              hcontains] using ih
          · simp [reached, missing?, Station.addresses, DirectMapping.firstUnmapped?, hcontains]

theorem reached_addresses (addresses : List (Address .loader)) :
    reached mapping (addresses.map .address) = [] := by
  induction addresses with
  | nil => rfl
  | cons a rest ih => simp [reached, ih]

theorem missing?_nil : missing? mapping [] = none :=
  rfl

theorem missing?_state (state : BootState) (rest : List Station) :
    missing? mapping (.state state :: rest) = missing? mapping rest :=
  rfl

end

/-- An action, seen in the journal, that comes to these stations. From every run whose cursor is on
the screen it enters the states up to the first address that is not mapped, and stops there with
the fault of that address; if all are mapped, it has a value of this kind. -/
def Visits {α : Type} (mapping : DirectMapping) (stations : List Station) (kind : α → Prop)
    (action : Boot Journal α) : Prop :=
  ∀ before : Run Journal, before.console.WellPlaced → ∃ after, after.console.WellPlaced ∧
    after.entered = before.entered ++ reached mapping stations ∧
    match missing? mapping stations with
    | some a => action.run.run before = (.error (.unmapped a.toNat), after)
    | none => ∃ value, kind value ∧ action.run.run before = (.ok value, after)

namespace Visits

variable {α β : Type} {mapping : DirectMapping} {xs ys : List Station} {kind : α → Prop}
  {kind' : β → Prop}

theorem pure {value : α} (h : kind value) : Visits mapping [] kind (Pure.pure value) := by
  intro before hplaced
  exact ⟨before, hplaced, (List.append_nil _).symm, value, h, rfl⟩

theorem bind {x : Boot Journal α} {f : α → Boot Journal β} (hx : Visits mapping xs kind x)
    (hf : ∀ value, kind value → Visits mapping ys kind' (f value)) :
    Visits mapping (xs ++ ys) kind' (x >>= f) := by
  intro before hplaced
  obtain ⟨middle, hmiddle, hentered, houtcome⟩ := hx before hplaced
  rw [missing?_append, reached_append]
  cases hmissing : missing? mapping xs with
  | some a =>
      rw [hmissing] at houtcome
      exact ⟨middle, hmiddle, by simpa using hentered, run_bind_of_error houtcome f⟩
  | none =>
      rw [hmissing] at houtcome
      obtain ⟨value, hvalue, hrun⟩ := houtcome
      obtain ⟨after, hafter, hlater, houtcome⟩ := hf value hvalue middle hmiddle
      refine ⟨after, hafter, ?_, ?_⟩
      · rw [hlater, hentered]
        simp
      · rw [run_bind_of_ok hrun]
        exact houtcome

/-- An action without stations in front of another one. -/
theorem bind_quiet {x : Boot Journal α} {f : α → Boot Journal β} (hx : Visits mapping [] kind x)
    (hf : ∀ value, kind value → Visits mapping ys kind' (f value)) :
    Visits mapping ys kind' (x >>= f) :=
  hx.bind hf

theorem first {x : Boot Journal Unit} {rest : Boot Journal β}
    (hx : Visits mapping [] (fun _ => True) x)
    (hrest : Visits mapping ys kind' rest) : Visits mapping ys kind' (x >>= fun _ => rest) :=
  hx.bind_quiet fun _ _ => hrest

theorem bind_last {x : Boot Journal α} {f : α → Boot Journal β} (hx : Visits mapping xs kind x)
    (hf : ∀ value, kind value → Visits mapping [] kind' (f value)) :
    Visits mapping xs kind' (x >>= f) := by
  rw [← List.append_nil xs]
  exact hx.bind hf

/-- A value to be had, with the addresses that it makes to be found. -/
theorem orStop {x : Except Fault α} {addresses : List (Address .loader)}
    (h : mapping.Finds addresses kind x) :
    Visits mapping (addresses.map .address) kind (orStop x) := by
  intro before hplaced
  unfold DirectMapping.Finds at h
  refine ⟨before, hplaced, ?_, ?_⟩
  · rw [reached_addresses, List.append_nil]
  · rw [missing?_addresses]
    cases hfirst : mapping.firstUnmapped? addresses with
    | some a =>
        rw [hfirst] at h
        simp only at h ⊢
        rw [h]
        rfl
    | none =>
        rw [hfirst] at h
        obtain ⟨value, rfl, hvalue⟩ := h
        exact ⟨value, hvalue, rfl⟩

theorem orStop_ok (value : α) : Visits mapping [] (fun _ => True) (Boot.orStop (.ok value)) :=
  pure trivial

/-- Every operation that writes is performed. -/
theorem perform {operation : Console.Operation} (hwriting : operation.asks = false) :
    Visits mapping [] (fun _ => True) (perform operation) := by
  intro before hplaced
  obtain ⟨reply, console, hperform, hafter⟩ := Console.perform_wellPlaced hplaced hwriting
  refine ⟨⟨console, before.log, before.performed.push operation⟩, hafter,
    (List.append_nil _).symm, (), trivial, ?_⟩
  rw [run_perform, hperform]

theorem note {entry : Entry} (h : ∀ state, entry ≠ .entered state) :
    Visits mapping [] (fun _ => True) (note entry) := by
  intro before hplaced
  refine ⟨{ before with log := before.log.push entry }, hplaced, ?_, (), trivial, rfl⟩
  cases entry with
  | entered state => exact absurd rfl (h state)
  | record r => simp [Run.entered, reached]
  | filter filter => simp [Run.entered, reached]

theorem submit (r : LogRecord) : Visits mapping [] (fun _ => True) (submit r) :=
  note fun _ h => nomatch h

theorem log (level : LogLevel) (target message : String) :
    Visits mapping [] (fun _ => True) (log level target message) :=
  submit _

theorem logMade (level : LogLevel) (target : String) {message : Boot Journal String}
    (h : Visits mapping [] (fun _ => True) message) :
    Visits mapping [] (fun _ => True) (logMade level target message) := by
  have hentry : Visits mapping [] (fun entry => ∃ r, entry = Entry.record r)
      (do return .record ⟨level, target, ← message⟩) :=
    h.bind_quiet fun _ _ => pure ⟨_, rfl⟩
  refine hentry.bind_quiet ?_
  rintro _ ⟨r, rfl⟩
  exact note fun _ h => nomatch h

theorem enter (state : BootState) :
    Visits mapping [.state state] (fun _ => True) (enter state) := by
  intro before hplaced
  refine ⟨{ before with log := before.log.push (.entered state) }, hplaced, ?_, (),
    trivial, rfl⟩
  simp [Run.entered, reached]

theorem print (s : String) : Visits mapping [] (fun _ => True) (print s) :=
  perform rfl

theorem writeDecimal (value : UInt32) : Visits mapping [] (fun _ => True) (writeDecimal value) :=
  perform rfl

theorem writeHex (value : UInt32) : Visits mapping [] (fun _ => True) (writeHex value) :=
  perform rfl

theorem setColors (colors : Attribute) :
    Visits mapping [] (fun _ => True) (Boot.perform (.setColors colors)) :=
  perform rfl

theorem forM {items : List α} {action : α → Boot Journal Unit}
    (h : ∀ item, Visits mapping [] (fun _ => True) (action item)) :
    Visits mapping [] (fun _ => True) (items.forM action) := by
  induction items with
  | nil => exact pure trivial
  | cons item rest ih => exact (h item).bind_quiet fun _ _ => ih

/-- Something that is done only if there is something to do it with. -/
theorem optional {x? : Option α} {action : α → Boot Journal Unit}
    (h : ∀ value ∈ x?, Visits mapping [] (fun _ => True) (action value)) :
    Visits mapping [] (fun _ => True) (x?.forM action) := by
  cases x? with
  | none => exact pure trivial
  | some value => exact h value rfl

/-- Addresses are no matter if all of them are mapped. -/
theorem of_covers {addresses : List (Address .loader)} {action : Boot Journal α}
    (hcovers : mapping.CoversLoader)
    (h : Visits mapping (addresses.map .address) kind action) : Visits mapping [] kind action := by
  unfold Visits at h
  simp only [reached_addresses, missing?_addresses,
    DirectMapping.firstUnmapped?_of_covers hcovers] at h
  exact h

/-- What is in memory, with the screen as it is at some moment. -/
theorem look (m : LoadedMemory) :
    Visits mapping [] (fun now => ∃ grid, now = m.showing grid) (look m) := by
  intro before hplaced
  exact ⟨before, hplaced, (List.append_nil _).symm, m.showing before.console.grid, ⟨_, rfl⟩, rfl⟩

theorem contents (m : LoadedMemory) (block : MemoryBlock) :
    Visits mapping [] (fun _ => True) (contents m block) :=
  (look m).bind_quiet fun _ _ => pure trivial

theorem writeBlock (m : LoadedMemory) (block : MemoryBlock) :
    Visits mapping [] (fun _ => True) (writeBlock m block) :=
  forM fun _ => (look m).bind_quiet fun _ _ => perform rfl

/-- Whatever the record is at that moment, it is read. -/
theorem record (report : LoaderReport) :
    Visits mapping [] (fun _ => True) (record report) :=
  (look report.memory).bind_quiet fun _ _ => pure trivial

/-- A part of a report that stays as it is. -/
theorem part? {report : LoaderReport} {info : InfoRecord}
    (hinfo : ∀ grid,
      InfoRecord.readAt (report.memory.showing grid).memory report.record.toNat = info)
    {part : InfoRecord → MappedMemory → Except Fault (Option α)}
    {addresses : List (Address .loader)} {kind : Option α → Prop}
    (h : ∀ grid, (report.memory.showing grid).mapping.Finds addresses kind
      (part info (report.memory.showing grid))) :
    Visits report.memory.mapping (addresses.map .address) kind (part? report part) := by
  apply (look report.memory).bind_quiet
  rintro _ ⟨grid, rfl⟩
  rw [hinfo grid]
  exact orStop (h grid)

end Visits

end EarlyBoot.Boot
