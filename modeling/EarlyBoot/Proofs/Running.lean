import EarlyBoot.Fault

/-!
Running two actions in a row, where an action changes a state and may stop with a fault.
-/

namespace EarlyBoot

variable {σ α β : Type} {x : ExceptT Fault (StateM σ) α} {before after : σ}

theorem run_bind_of_error {fault : Fault} (h : x.run.run before = (.error fault, after))
    (f : α → ExceptT Fault (StateM σ) β) : (x >>= f).run.run before = (.error fault, after) := by
  rw [ExceptT.run_bind, StateT.run_bind, h]
  rfl

theorem run_bind_of_ok {value : α} (h : x.run.run before = (.ok value, after))
    (f : α → ExceptT Fault (StateM σ) β) :
    (x >>= f).run.run before = (f value).run.run after := by
  rw [ExceptT.run_bind, StateT.run_bind, h]
  rfl

theorem exists_of_run_bind {f : α → ExceptT Fault (StateM σ) β} {value : β}
    (h : (x >>= f).run.run before = (.ok value, after)) :
    ∃ first middle, x.run.run before = (.ok first, middle) ∧
      (f first).run.run middle = (.ok value, after) := by
  cases hx : x.run.run before with
  | mk outcome middle =>
      cases outcome with
      | error fault =>
          rw [run_bind_of_error hx] at h
          cases h
      | ok first =>
          rw [run_bind_of_ok hx] at h
          exact ⟨first, middle, rfl, h⟩

end EarlyBoot
