import EarlyBoot.Proofs.Boot.Ending
import EarlyBoot.Proofs.Boot.Stages
import EarlyBoot.Proofs.Console.Page

/-!
What the parts of a boot put on the screen, as lists of console operations. Some parts read
nothing and always do the same. What the others show may depend on what they read; if they come to
an end, they too have performed a list of operations and nothing else, whatever went to the log
meanwhile.
-/

namespace EarlyBoot.Boot

variable {σ α β : Type}

section

variable [Sink σ]

/-- An action that reads nothing. It performs these operations on the console, comes up with these
entries for the log and has this value; an operation that fails is the end of it. -/
def Performs (operations : List Console.Operation) (entries : List Entry) (value : α)
    (action : Boot σ α) : Prop :=
  ∀ before : Run σ,
    match before.console.play operations with
    | .ok console =>
        action.run.run before = (.ok value,
          ⟨console, entries.foldl hear before.log, before.performed ++ operations.toArray⟩)
    | .error fault => ∃ after, action.run.run before = (.error fault, after)

namespace Performs

variable {xs ys : List Console.Operation} {es fs : List Entry} {a : α} {b : β}

theorem run_of_play {action : Boot σ α} (h : Performs xs es a action) (before : Run σ)
    {console : Console} (hplay : before.console.play xs = .ok console) :
    action.run.run before =
      (.ok a, ⟨console, es.foldl hear before.log, before.performed ++ xs.toArray⟩) := by
  have hrun := h before
  rw [hplay] at hrun
  exact hrun

theorem pure (value : α) : Performs [] [] value (Pure.pure value : Boot σ α) := by
  intro before
  simp only [Console.play_nil, Array.append_empty, List.foldl_nil]
  rfl

theorem bind {x : Boot σ α} {f : α → Boot σ β} (hx : Performs xs es a x)
    (hf : Performs ys fs b (f a)) : Performs (xs ++ ys) (es ++ fs) b (x >>= f) := by
  intro before
  have hfirst := hx before
  rw [Console.play_append]
  cases hxs : before.console.play xs with
  | error fault =>
      rw [hxs] at hfirst
      obtain ⟨after, hrun⟩ := hfirst
      exact ⟨after, run_bind_of_error hrun f⟩
  | ok console =>
      rw [hxs] at hfirst
      have hnext := hf ⟨console, es.foldl hear before.log, before.performed ++ xs.toArray⟩
      rw [run_bind_of_ok hfirst]
      simp only [Array.append_assoc, List.append_toArray, ← List.foldl_append] at hnext
      exact hnext

/-- One operation, and what comes after it. -/
theorem step {operation : Console.Operation} {x : Boot σ Unit} {rest : Boot σ β}
    (hx : Performs [operation] [] () x) (hrest : Performs ys fs b rest) :
    Performs (operation :: ys) fs b (x >>= fun _ => rest) :=
  hx.bind hrest

theorem perform (operation : Console.Operation) :
    Performs [operation] [] () (perform operation : Boot σ Unit) := by
  intro before
  have hpush : before.performed.push operation = before.performed ++ [operation].toArray := by
    simp
  rw [Console.play_cons, run_perform]
  cases before.console.perform operation with
  | error fault => exact ⟨before, rfl⟩
  | ok answer =>
      rw [hpush]
      rfl

theorem print (s : String) : Performs [.writeText s] [] () (print s : Boot σ Unit) :=
  perform _

theorem writeHex (value : UInt32) :
    Performs [.writeHex value] [] () (writeHex value : Boot σ Unit) :=
  perform _

theorem useColor (color : Color) :
    Performs [.setColors (.of color .black)] [] () (useColor color : Boot σ Unit) :=
  perform _

/-- A look at memory from which the same follows whatever the screen shows. -/
theorem look_step {m : LoadedMemory} {f : MappedMemory → Boot σ β}
    (h : ∀ grid, Performs ys fs b (f (m.showing grid))) :
    Performs ys fs b (Boot.look m >>= f) :=
  fun before => h before.console.grid before

theorem orStop_step {x : Except Fault α} {f : α → Boot σ β} (hx : x = .ok a)
    (h : Performs ys fs b (f a)) : Performs ys fs b (Boot.orStop x >>= f) := by
  subst hx
  exact h

/-- An entry for a record of some level, if it can be had without a look at anything. -/
theorem offer {level : LogLevel} {entry : Entry} (hlevel : entry.level? = some level) :
    Performs [] [entry] () (offer level (Pure.pure entry) : Boot σ Unit) := by
  intro before
  have hheard : hear before.log entry =
      if Sink.admits before.log level then Sink.take before.log entry else before.log := by
    rw [hear, hlevel]
    rfl
  simp only [Console.play_nil, Array.append_empty, List.foldl_cons, List.foldl_nil, hheard]
  cases hadmits : Sink.admits before.log level with
  | false => exact run_offer_of_refuses hadmits _
  | true => exact run_offer_of_admits hadmits _

theorem log_step {level : LogLevel} {target message : String} {rest : Boot σ β}
    (hrest : Performs ys fs b rest) :
    Performs ys (.record ⟨level, target, message⟩ :: fs) b
      (Boot.log level target message >>= fun _ => rest) :=
  (offer rfl).bind hrest

theorem enter_step {state : BootState} {rest : Boot σ β} (hrest : Performs ys fs b rest) :
    Performs ys (.entered state :: fs) b (Boot.enter state >>= fun _ => rest) :=
  (offer rfl).bind hrest

end Performs

end

/-- An action that, if it comes to an end, has performed just these operations on the console and
has a value of this kind. -/
def Draws (operations : List Console.Operation) (kind : α → Prop) (action : Boot σ α) : Prop :=
  ∀ (before : Run σ) (value : α) (after : Run σ), action.run.run before = (.ok value, after) →
    after.performed = before.performed ++ operations.toArray ∧
      before.console.play operations = .ok after.console ∧ kind value

namespace Draws

variable {xs ys : List Console.Operation} {kind : α → Prop} {kind' : β → Prop}

theorem bind {x : Boot σ α} {f : α → Boot σ β} (hx : Draws xs kind x)
    (hf : ∀ value, kind value → Draws ys kind' (f value)) : Draws (xs ++ ys) kind' (x >>= f) := by
  intro before value after hrun
  obtain ⟨first, middle, hfirst, hrest⟩ := exists_of_run_bind hrun
  obtain ⟨hperformed, hplay, hkind⟩ := hx before first middle hfirst
  obtain ⟨hlater, hnext, hvalue⟩ := hf first hkind middle value after hrest
  refine ⟨?_, ?_, hvalue⟩
  · simp [hlater, hperformed]
  · rw [Console.play_append, hplay]
    exact hnext

/-- A part that shows nothing in front of another one. -/
theorem bind_dark {x : Boot σ α} {f : α → Boot σ β} (hx : Draws [] kind x)
    (hf : ∀ value, kind value → Draws ys kind' (f value)) : Draws ys kind' (x >>= f) :=
  hx.bind hf

/-- A part that shows nothing behind another one. -/
theorem bind_last {x : Boot σ α} {f : α → Boot σ β} (hx : Draws xs kind x)
    (hf : ∀ value, kind value → Draws [] kind' (f value)) : Draws xs kind' (x >>= f) := by
  rw [← List.append_nil xs]
  exact hx.bind hf

theorem first {x : Boot σ Unit} {rest : Boot σ β} (hx : Draws xs (fun _ => True) x)
    (hrest : Draws ys kind' rest) : Draws (xs ++ ys) kind' (x >>= fun _ => rest) :=
  hx.bind fun _ _ => hrest

/-- One operation, and what comes after it. -/
theorem step {operation : Console.Operation} {x : Boot σ Unit} {rest : Boot σ β}
    (hx : Draws [operation] (fun _ => True) x) (hrest : Draws ys kind' rest) :
    Draws (operation :: ys) kind' (x >>= fun _ => rest) :=
  hx.first hrest

theorem first_dark {x : Boot σ Unit} {rest : Boot σ β} (hx : Draws [] (fun _ => True) x)
    (hrest : Draws ys kind' rest) : Draws ys kind' (x >>= fun _ => rest) :=
  hx.first hrest

theorem pure {value : α} (h : kind value) : Draws [] kind (Pure.pure value : Boot σ α) := by
  intro before found after hrun
  cases hrun
  exact ⟨Array.append_empty.symm, rfl, h⟩

theorem orStop {x : Except Fault α} (h : ∀ value, x = .ok value → kind value) :
    Draws [] kind (orStop x : Boot σ α) := by
  cases x with
  | error fault =>
      intro before value after hrun
      cases hrun
  | ok value => exact pure (h value rfl)

theorem look (m : LoadedMemory) :
    Draws [] (fun now => ∃ grid, now = m.showing grid) (look m : Boot σ MappedMemory) := by
  intro before value after hrun
  cases hrun
  exact ⟨Array.append_empty.symm, rfl, before.console.grid, rfl⟩

theorem perform (operation : Console.Operation) :
    Draws [operation] (fun _ => True) (perform operation : Boot σ Unit) := by
  intro before value after hrun
  rw [run_perform] at hrun
  cases hperform : before.console.perform operation with
  | error fault =>
      rw [hperform] at hrun
      cases hrun
  | ok answer =>
      rw [hperform] at hrun
      cases hrun
      refine ⟨by simp, ?_, trivial⟩
      rw [Console.play_cons, hperform]
      rfl

theorem print (s : String) : Draws [.writeText s] (fun _ => True) (print s : Boot σ Unit) :=
  perform _

theorem writeDecimal (value : UInt32) :
    Draws [.writeDecimal value] (fun _ => True) (writeDecimal value : Boot σ Unit) :=
  perform _

theorem writeHex (value : UInt32) :
    Draws [.writeHex value] (fun _ => True) (writeHex value : Boot σ Unit) :=
  perform _

theorem useColor (color : Color) :
    Draws [.setColors (.of color .black)] (fun _ => True) (useColor color : Boot σ Unit) :=
  perform _

theorem forM {items : List α} {script : α → List Console.Operation} {action : α → Boot σ Unit}
    (h : ∀ item ∈ items, Draws (script item) (fun _ => True) (action item)) :
    Draws (items.flatMap script) (fun _ => True) (items.forM action) := by
  induction items with
  | nil => exact pure trivial
  | cons item rest ih =>
      obtain ⟨hitem, hrest⟩ := List.forall_mem_cons.mp h
      exact hitem.first (ih hrest)

theorem forM_dark {items : List α} {action : α → Boot σ Unit}
    (h : ∀ item, Draws [] (fun _ => True) (action item)) :
    Draws [] (fun _ => True) (items.forM action) := by
  have hall : Draws (items.flatMap fun _ => []) (fun _ => True) (items.forM action) :=
    forM fun item _ => h item
  rwa [List.flatMap_eq_nil_iff.mpr fun _ _ => rfl] at hall

/-- Something that shows nothing, and is done only if there is something to do it with. -/
theorem optional_dark {x? : Option α} {action : α → Boot σ Unit}
    (h : ∀ value ∈ x?, Draws [] (fun _ => True) (action value)) :
    Draws [] (fun _ => True) (x?.forM action) := by
  cases x? with
  | none => exact pure trivial
  | some value => exact h value rfl

theorem contents (m : LoadedMemory) (block : MemoryBlock) :
    Draws [] (fun _ => True) (contents m block : Boot σ Bytes) :=
  (look m).bind_dark fun _ _ => pure trivial

/-- A block that the screen does not reach is shown as it is in memory. -/
theorem writeBlock {m : LoadedMemory} {block : MemoryBlock} {text : Bytes}
    (h : ∀ grid, (m.showing grid).memory.contents block = text) :
    Draws (text.map .put) (fun _ => True) (writeBlock m block : Boot σ Unit) := by
  let still := (m.showing (.filled (.blank .default))).memory
  have hbyte (grid : Grid) : ∀ i ∈ List.range block.length,
      (m.showing grid).memory.byteAt (block.start + i) = still.byteAt (block.start + i) :=
    List.map_inj_left.mp ((h grid).trans (h _).symm)
  have hputs : (List.range block.length).flatMap
      (fun i => [Console.Operation.put (still.byteAt (block.start + i))]) = text.map .put := by
    rw [← h (.filled (.blank .default)), ← List.map_eq_flatMap, Memory.contents, Memory.bytes,
      List.map_map]
    rfl
  rw [← hputs]
  refine forM fun i hi => (look m).bind_dark ?_
  rintro _ ⟨grid, rfl⟩
  rw [← hbyte grid i hi]
  exact perform _

theorem part? (report : LoaderReport)
    (part : InfoRecord → MappedMemory → Except Fault (Option α)) :
    Draws [] (fun value => ∃ grid,
        part (.readAt (report.memory.showing grid).memory report.record.toNat)
          (report.memory.showing grid) = .ok value)
      (part? report part : Boot σ (Option α)) := by
  refine (look report.memory).bind_dark ?_
  rintro _ ⟨grid, rfl⟩
  exact orStop fun value hvalue => ⟨grid, hvalue⟩

theorem record (report : LoaderReport) :
    Draws [] (fun now => ∃ grid,
        now = .readAt (report.memory.showing grid).memory report.record.toNat)
      (record report : Boot σ InfoRecord) := by
  refine (look report.memory).bind_dark ?_
  rintro _ ⟨grid, rfl⟩
  exact pure ⟨grid, rfl⟩

section

variable [Sink σ]

theorem note (entry : Entry) : Draws [] (fun _ => True) (note entry : Boot σ Unit) := by
  intro before value after hrun
  cases hrun
  exact ⟨Array.append_empty.symm, rfl, trivial⟩

/-- What is worked out for the log shows nothing, whether it is wanted or not. -/
theorem offer (level : LogLevel) {entry : Boot σ Entry} (h : Draws [] (fun _ => True) entry) :
    Draws [] (fun _ => True) (offer level entry) := by
  intro before value after hrun
  cases hadmits : Sink.admits before.log level with
  | false =>
      rw [run_offer_of_refuses hadmits] at hrun
      cases hrun
      exact ⟨Array.append_empty.symm, rfl, trivial⟩
  | true =>
      rw [run_offer_of_admits hadmits] at hrun
      exact h.bind_last (fun found _ => note found) before value after hrun

theorem submit (r : LogRecord) : Draws [] (fun _ => True) (submit r : Boot σ Unit) :=
  offer _ (pure trivial)

theorem log (level : LogLevel) (target message : String) :
    Draws [] (fun _ => True) (log level target message : Boot σ Unit) :=
  submit _

theorem logMade (level : LogLevel) (target : String) {message : Boot σ String}
    (h : Draws [] (fun _ => True) message) :
    Draws [] (fun _ => True) (logMade level target message) :=
  offer _ (h.bind_dark fun _ _ => pure trivial)

theorem enter (state : BootState) : Draws [] (fun _ => True) (enter state : Boot σ Unit) :=
  offer _ (pure trivial)

end

end Draws

-- From here on `Performs` is used through the lemmas above: to unfold it would be to run the
-- operations.
attribute [irreducible] Performs

/-- What every boot shows first. -/
def openingScript : List Console.Operation :=
  [ .setColors (.of bannerColor .black),
    .writeText "nekkoOS Kernel v0.1\n",
    .writeText "==================\n\n" ]

end EarlyBoot.Boot
