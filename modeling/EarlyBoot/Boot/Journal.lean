import EarlyBoot.Log

/-!
The journal of a boot: every record that could be made, every state that is entered and every
change of the filter, in order. A filter decides which of the records are sent.
-/

namespace EarlyBoot

inductive BootState where
  | booting
  | verifying
  /-- The hand-off was rejected and the processor stops for good. -/
  | halted
  | runningInit
  /-- All is set up and the processor waits for interrupts. -/
  | idle
deriving DecidableEq

namespace BootState

def all : List BootState :=
  [booting, verifying, halted, runningInit, idle]

def name : BootState → String
  | booting => "Booting"
  | verifying => "Verifying"
  | halted => "Halted"
  | runningInit => "RunningInit"
  | idle => "Idle"

/-- Whether no state follows. -/
def isTerminal : BootState → Bool
  | halted => true
  | idle => true
  | _ => false

end BootState

namespace Boot

def logTarget : String := "nekko_kernel::kernel"

inductive Entry where
  | record (record : LogRecord)
  | entered (state : BootState)
  | filter (filter : LogFilter)
deriving DecidableEq

/-- The record for an entry. Entering a state is logged, a change of the filter is not. -/
def Entry.record? : Entry → Option LogRecord
  | .record r => some r
  | .entered state => some ⟨.debug, logTarget, "boot state " ++ state.name⟩
  | .filter _ => none

def filterAfter (filter : LogFilter) (journal : List Entry) : LogFilter :=
  journal.foldl (fun current entry =>
    match entry with
    | .filter next => next
    | _ => current) filter

/-- The records that the filter in force lets through. -/
def emitted (filter : LogFilter) : List Entry → List LogRecord
  | [] => []
  | entry :: rest =>
    ((entry.record?.filter (filter.admits ·.level)).toList)
      ++ emitted (filterAfter filter [entry]) rest

end Boot

end EarlyBoot
