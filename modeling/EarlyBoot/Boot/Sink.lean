import EarlyBoot.Boot.Journal

/-!
Where the log of a boot goes. A program asks whether a record of some level is wanted before it
makes the record. On the serial line this depends on the filter in force; the journal takes
everything, and so is what a boot looks like to someone who wants all of it.
-/

namespace EarlyBoot.Boot

/-- Something that keeps a log, or sends it away. -/
class Sink (σ : Type) where
  /-- Whether a record of this level is wanted at the moment. -/
  admits : σ → LogLevel → Bool
  take : σ → Entry → σ

abbrev Journal := Array Entry

instance : Sink Journal where
  admits _ _ := true
  take := Array.push

/-- The log on the serial line. -/
structure SerialLog where
  /-- The filter in force, up to which records are wanted. -/
  filter : LogFilter
  sent : Array LogRecord := #[]

namespace SerialLog

/-- A record is tested again when it comes to be sent. -/
def send (log : SerialLog) (r : LogRecord) : SerialLog :=
  if log.filter.admits r.level then { log with sent := log.sent.push r } else log

def take (log : SerialLog) : Entry → SerialLog
  | .filter next => { log with filter := next }
  | entry => entry.record?.elim log log.send

instance : Sink SerialLog where
  admits log level := log.filter.admits level
  take := take

end SerialLog

end EarlyBoot.Boot
