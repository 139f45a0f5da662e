import EarlyBoot.Lock

/-!
Sessions with a lock. At every moment nobody holds the lock or exactly one slot does, so a session
comes down to who holds the lock and to the value in it. The value is the first one with all the
changes that were answered as made, in their order, and nobody makes one without the lock.
-/

namespace EarlyBoot.Lock

variable {α : Type}

/-- Whether a step waits for the lock while it is taken. -/
def Step.waits : Step α → Bool
  | .take _ => true
  | .update _ => true
  | _ => false

/-- What a step does to the value, as told by the answer to it. -/
def Step.change? : Step α → Reply α → Option (α → α)
  | .set _ value, .seen (some _) => some fun _ => value
  | .update f, .seen (some _) => some f
  | _, _ => none

/-- A value after all changes that steps with these answers made to it. -/
def valueAfter (value : α) (steps : List (Step α)) (replies : List (Reply α)) : α :=
  ((steps.zip replies).filterMap fun (step, reply) => step.change? reply).foldl
    (fun current change => change current) value

namespace Session

/-- The session after steps in a row and the answers to them; none if one of them waits without
end. -/
def run? (s : Session α) : List (Step α) → Option (Session α × List (Reply α))
  | [] => some (s, [])
  | step :: rest => do
    let (middle, reply) ← s.step? step
    let (after, replies) ← middle.run? rest
    return (after, reply :: replies)

/-- A session in which one slot holds the lock. -/
def heldBy (slot : Nat) (value : α) : Session α :=
  ⟨⟨value, true⟩, fun i => decide (i = slot)⟩

/-- The two kinds of sessions that there are: nobody holds the lock, or one slot does. -/
inductive Guarded (value : α) : Session α → Prop where
  | free : Guarded value (start value)
  | held (slot : Nat) : Guarded value (heldBy slot value)

theorem mark_start (slot : Nat) (value : α) :
    ({ start value with lock := ⟨value, true⟩ } : Session α).mark slot true =
      heldBy slot value := by
  simp only [mark, start, heldBy, Session.mk.injEq, true_and]
  funext i
  by_cases hi : i = slot <;> simp [hi]

theorem mark_heldBy (slot : Nat) (value : α) :
    ({ heldBy slot value with lock := ⟨value, false⟩ } : Session α).mark slot false =
      start value := by
  simp only [mark, start, heldBy, Session.mk.injEq, true_and]
  funext i
  by_cases hi : i = slot <;> simp [hi]

namespace Guarded

variable {value : α} {s : Session α} (h : Guarded value s)

include h

theorem value_eq : s.lock.value = value := by
  cases h <;> rfl

theorem eq_of_holds {i j : Nat} (hi : s.holds i = true) (hj : s.holds j = true) : i = j := by
  cases h with
  | free => cases hi
  | held slot => exact (of_decide_eq_true hi).trans (of_decide_eq_true hj).symm

theorem locked_iff : s.lock.locked = true ↔ ∃ i, s.holds i = true := by
  cases h with
  | free => exact ⟨nofun, fun ⟨_, hi⟩ => nomatch hi⟩
  | held slot => exact ⟨fun _ => ⟨slot, decide_eq_true rfl⟩, fun _ => rfl⟩

theorem step?_tryTake (slot : Nat) : s.step? (.tryTake slot) =
    some (if s.lock.locked then (s, .flag false) else (heldBy slot value, .flag true)) := by
  cases h with
  | free => exact congrArg (fun taken => some (taken, Reply.flag true)) (mark_start slot value)
  | held other => rfl

theorem step?_take (slot : Nat) : s.step? (.take slot) =
    if s.lock.locked then none else some (heldBy slot value, .flag true) := by
  cases h with
  | free => exact congrArg (fun taken => some (taken, Reply.flag true)) (mark_start slot value)
  | held other => rfl

theorem step?_get (slot : Nat) :
    s.step? (.get slot) = some (s, .seen (if s.holds slot then some value else none)) := by
  rw [step?, h.value_eq]

theorem step?_set (slot : Nat) (next : α) : s.step? (.set slot next) =
    some (if s.holds slot then (heldBy slot next, .seen (some next)) else (s, .seen none)) := by
  cases h with
  | free => rfl
  | held other =>
      by_cases hslot : slot = other
      · subst hslot
        simp [step?, heldBy]
      · simp [step?, heldBy, hslot]

theorem step?_release (slot : Nat) : s.step? (.release slot) =
    some (if s.holds slot then (start value, .flag true) else (s, .flag false)) := by
  cases h with
  | free => rfl
  | held other =>
      by_cases hslot : slot = other
      · subst hslot
        have hholds : (heldBy slot value).holds slot = true := decide_eq_true rfl
        rw [step?, if_pos hholds, if_pos hholds]
        exact congrArg (fun freed => some (freed, Reply.flag true)) (mark_heldBy slot value)
      · have hholds : ¬ (heldBy other value).holds slot = true := by simp [heldBy, hslot]
        rw [step?, if_neg hholds, if_neg hholds]

theorem step?_update (f : α → α) : s.step? (.update f) =
    if s.lock.locked then none else some (start (f value), .seen (some value)) := by
  cases h with
  | free => rfl
  | held slot => rfl

/-- A step waits without end only for a lock that is taken. -/
theorem isSome_step? (step : Step α) :
    (s.step? step).isSome = ! (s.lock.locked && step.waits) := by
  cases step with
  | tryTake slot => simp [h.step?_tryTake, Step.waits]
  | take slot => cases hlocked : s.lock.locked <;> simp [h.step?_take, Step.waits, hlocked]
  | get slot => simp [h.step?_get, Step.waits]
  | set slot next => simp [h.step?_set, Step.waits]
  | release slot => simp [h.step?_release, Step.waits]
  | update f => cases hlocked : s.lock.locked <;> simp [h.step?_update, Step.waits, hlocked]

/-- One step leads to a session of the two kinds, around the value that the answer tells. -/
theorem step {step : Step α} {after : Session α} {reply : Reply α}
    (hstep : s.step? step = some (after, reply)) :
    Guarded (((step.change? reply).map (· value)).getD value) after := by
  cases step with
  | tryTake slot =>
      rw [h.step?_tryTake] at hstep
      split at hstep <;> cases hstep
      · exact h
      · exact .held slot
  | take slot =>
      rw [h.step?_take] at hstep
      split at hstep <;> cases hstep
      exact .held slot
  | get slot =>
      rw [h.step?_get] at hstep
      cases hstep
      exact h
  | set slot next =>
      rw [h.step?_set] at hstep
      split at hstep <;> cases hstep
      · exact .held slot
      · exact h
  | release slot =>
      rw [h.step?_release] at hstep
      split at hstep <;> cases hstep
      · exact .free
      · exact h
  | update f =>
      rw [h.step?_update] at hstep
      split at hstep <;> cases hstep
      exact .free

end Guarded

theorem valueAfter_cons (value : α) (step : Step α) (reply : Reply α) (steps : List (Step α))
    (replies : List (Reply α)) :
    valueAfter value (step :: steps) (reply :: replies) =
      valueAfter (((step.change? reply).map (· value)).getD value) steps replies := by
  unfold valueAfter
  rw [List.zip_cons_cons, List.filterMap_cons]
  cases hchange : step.change? reply with
  | none => simp [hchange]
  | some change => simp [hchange]

theorem run?_cons {s after : Session α} {step : Step α} {rest : List (Step α)}
    {replies : List (Reply α)} (h : s.run? (step :: rest) = some (after, replies)) :
    ∃ middle reply later, s.step? step = some (middle, reply) ∧
      middle.run? rest = some (after, later) ∧ replies = reply :: later := by
  simp only [run?, Option.bind_eq_bind, Option.bind_eq_some_iff] at h
  obtain ⟨⟨middle, reply⟩, hstep, ⟨last, later⟩, hrest, hend⟩ := h
  cases hend
  exact ⟨middle, reply, later, hstep, hrest, rfl⟩

/-- A whole session is of one of the two kinds, around the first value and all changes to it. -/
theorem Guarded.run {value : α} {s after : Session α} (h : Guarded value s)
    {steps : List (Step α)} {replies : List (Reply α)}
    (hrun : s.run? steps = some (after, replies)) :
    Guarded (valueAfter value steps replies) after := by
  induction steps generalizing s value replies with
  | nil =>
      cases hrun
      exact h
  | cons step rest ih =>
      obtain ⟨middle, reply, later, hstep, hrest, rfl⟩ := run?_cons hrun
      rw [valueAfter_cons]
      exact ih (h.step hstep) hrest

/-- A session goes on with one more step if this step does. -/
theorem isSome_run?_append {s after : Session α} {steps : List (Step α)}
    {replies : List (Reply α)} (h : s.run? steps = some (after, replies)) (step : Step α) :
    (s.run? (steps ++ [step])).isSome = (after.step? step).isSome := by
  induction steps generalizing s replies with
  | nil =>
      cases h
      rw [List.nil_append, run?]
      cases after.step? step <;> rfl
  | cons first rest ih =>
      obtain ⟨middle, reply, later, hfirst, hrest, rfl⟩ := run?_cons h
      rw [List.cons_append, run?, hfirst, ← ih hrest]
      cases hmore : middle.run? (rest ++ [step]) <;> simp [hmore]

/-- However the steps of a session follow one another, at most one slot holds a guard, and the lock
is taken exactly while one does. Who tries it gets it exactly if it is free and changes nothing
otherwise. A guard that is released, and an update, leave the lock free; without a guard nothing is
seen, set or released. What is seen is the first value with all changes that were made before, in
their order. No step waits without end but one that needs the lock while it is taken. -/
theorem run_excludes_others (initial : α) (steps : List (Step α)) (s : Session α)
    (replies : List (Reply α)) (h : (start initial).run? steps = some (s, replies)) :
    let current := valueAfter initial steps replies
    (∀ i j, s.holds i = true → s.holds j = true → i = j) ∧
    (s.lock.locked = true ↔ ∃ i, s.holds i = true) ∧
    s.lock.value = current ∧
    (∀ slot, s.step? (.tryTake slot) =
      some (if s.lock.locked then (s, .flag false) else (heldBy slot current, .flag true))) ∧
    (∀ slot, s.step? (.take slot) =
      if s.lock.locked then none else some (heldBy slot current, .flag true)) ∧
    (∀ slot, s.step? (.get slot) =
      some (s, .seen (if s.holds slot then some current else none))) ∧
    (∀ slot value, s.step? (.set slot value) =
      some (if s.holds slot then (heldBy slot value, .seen (some value)) else (s, .seen none))) ∧
    (∀ slot, s.step? (.release slot) =
      some (if s.holds slot then (start current, .flag true) else (s, .flag false))) ∧
    (∀ f, s.step? (.update f) =
      if s.lock.locked then none else some (start (f current), .seen (some current))) ∧
    ∀ step, ((start initial).run? (steps ++ [step])).isSome = ! (s.lock.locked && step.waits) := by
  intro current
  have hguarded : Guarded current s := Guarded.free.run h
  refine ⟨fun _ _ => hguarded.eq_of_holds, hguarded.locked_iff, hguarded.value_eq,
    hguarded.step?_tryTake, hguarded.step?_take, hguarded.step?_get, hguarded.step?_set,
    hguarded.step?_release, hguarded.step?_update, fun step => ?_⟩
  rw [isSome_run?_append h, hguarded.isSome_step?]

/-- Slot 3 takes the lock in front of slot 0, which then tries in vain to set and to release it. -/
def sampleSteps : List (Step Nat) :=
  [ .tryTake 3, .tryTake 0, .set 0 9, .set 3 7, .get 3, .release 0, .release 3, .update (· + 1),
    .take 1, .get 1 ]

def sampleReplies : List (Reply Nat) :=
  [ .flag true, .flag false, .seen none, .seen (some 7), .seen (some 7), .flag false, .flag true,
    .seen (some 7), .flag true, .seen (some 8) ]

theorem run_of_sampleSteps : ∃ s : Session Nat,
    (start 5).run? sampleSteps = some (s, sampleReplies) ∧ s.lock.value = 8 ∧
    s.step? (.tryTake 0) = some (s, .flag false) ∧
    s.step? (.release 1) = some (start 8, .flag true) := by
  refine ⟨_, rfl, ?_⟩
  obtain ⟨-, -, hvalue, htry, -, -, -, hrelease, -⟩ :=
    run_excludes_others 5 sampleSteps _ sampleReplies rfl
  exact ⟨hvalue, htry 0, hrelease 1⟩

end Session

end EarlyBoot.Lock
