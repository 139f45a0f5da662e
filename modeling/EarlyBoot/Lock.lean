/-!
A lock around a value, and the guards that callers keep in numbered slots. A taken lock admits
nobody until its guard is released: on one processor waiting for it would never end, so that case
has no result.
-/

namespace EarlyBoot

/-- A value and whether somebody has exclusive access to it. -/
structure Lock (α : Type) where
  value : α
  locked : Bool := false

namespace Lock

variable {α : Type}

/-- Take the lock if it is free. -/
def take? (l : Lock α) : Option (Lock α) :=
  if l.locked then none else some { l with locked := true }

def free (l : Lock α) : Lock α :=
  { l with locked := false }

/-- Take the lock, change the value and give the lock back. Also gives the value before. -/
def update? (l : Lock α) (f : α → α) : Option (α × Lock α) :=
  l.take?.map fun taken => (taken.value, { taken with value := f taken.value }.free)

/-- A lock and the slots that hold a guard for it. -/
structure Session (α : Type) where
  lock : Lock α
  holds : Nat → Bool := fun _ => false

inductive Step (α : Type) where
  /-- Try to take the lock and put the guard into a slot. -/
  | tryTake (slot : Nat)
  /-- Take the lock, waiting for it if need be, and put the guard into a slot. -/
  | take (slot : Nat)
  | get (slot : Nat)
  | set (slot : Nat) (value : α)
  /-- Drop the guard in a slot. -/
  | release (slot : Nat)
  | update (f : α → α)

inductive Reply (α : Type) where
  | flag (b : Bool)
  /-- The value seen through a guard, if there is one. -/
  | seen (value : Option α)

namespace Session

def start (value : α) : Session α :=
  ⟨⟨value, false⟩, fun _ => false⟩

/-- Set whether a slot holds a guard. -/
def mark (s : Session α) (slot : Nat) (held : Bool) : Session α :=
  { s with holds := fun i => if i = slot then held else s.holds i }

/-- The session after one step and the answer to it; none for a wait without end. -/
def step? (s : Session α) : Step α → Option (Session α × Reply α)
  | .tryTake slot =>
    match s.lock.take? with
    | some taken => some ({ s with lock := taken }.mark slot true, .flag true)
    | none => some (s, .flag false)
  | .take slot => s.lock.take?.map fun taken =>
    ({ s with lock := taken }.mark slot true, .flag true)
  | .get slot => some (s, .seen (if s.holds slot then some s.lock.value else none))
  | .set slot value =>
    if s.holds slot then
      some ({ s with lock := { s.lock with value := value } }, .seen (some value))
    else some (s, .seen none)
  | .release slot =>
    if s.holds slot then some ({ s with lock := s.lock.free }.mark slot false, .flag true)
    else some (s, .flag false)
  | .update f => (s.lock.update? f).map fun (before, lock) =>
    ({ s with lock := lock }, .seen (some before))

end Session

end Lock

end EarlyBoot
