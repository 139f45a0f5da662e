import EarlyBoot.Boot.Sink
import EarlyBoot.Console.Operation

/-!
Running a boot: steps that write to the console and to the log, and may stop with a fault. What
was done before a fault stays. The program is the same for every kind of log.
-/

namespace EarlyBoot

namespace Boot

/-- The console and the log as a boot has left them. -/
structure Run (σ : Type) where
  console : Console
  log : σ
  /-- The operations that the console has performed. -/
  performed : Array Console.Operation := #[]

end Boot

abbrev Boot (σ : Type) := ExceptT Fault (StateM (Boot.Run σ))

namespace Boot

variable {σ : Type}

def perform (operation : Console.Operation) : Boot σ Unit := do
  match (← get).console.perform operation with
  | .ok (_, console) =>
    modify fun run =>
      { run with console := console, performed := run.performed.push operation }
  | .error fault => throw fault

/-- Write a text whose characters are all on the screen. -/
def print (s : String) : Boot σ Unit :=
  perform (.writeText s)

def writeDecimal (value : UInt32) : Boot σ Unit :=
  perform (.writeDecimal value)

def writeHex (value : UInt32) : Boot σ Unit :=
  perform (.writeHex value)

/-- Write in this color on black from here on. -/
def useColor (foreground : Color) : Boot σ Unit :=
  perform (.setColors (.of foreground .black))

section

variable [Sink σ]

def note (entry : Entry) : Boot σ Unit :=
  modify fun run => { run with log := Sink.take run.log entry }

/-- Make an entry for a record of this level, if such a record is wanted. Otherwise nothing of it
is worked out. -/
def offer (level : LogLevel) (entry : Boot σ Entry) : Boot σ Unit := do
  if Sink.admits (← get).log level then
    note (← entry)

def submit (r : LogRecord) : Boot σ Unit :=
  offer r.level (pure (.record r))

def log (level : LogLevel) (target message : String) : Boot σ Unit :=
  submit ⟨level, target, message⟩

/-- Log a message that is made from what is in memory at that moment. -/
def logMade (level : LogLevel) (target : String) (message : Boot σ String) : Boot σ Unit :=
  offer level do return .record ⟨level, target, ← message⟩

def enter (state : BootState) : Boot σ Unit :=
  offer .debug (pure (.entered state))

end

/-- A value that may not be there to be had. -/
def orStop {α : Type} (value : Except Fault α) : Boot σ α :=
  match value with
  | .ok a => pure a
  | .error fault => throw fault

end Boot

end EarlyBoot
