import EarlyBoot.Log
import EarlyBoot.SerialLine

/-!
The logger of the program, which writes to the first serial line. There is one logger for the
whole run: a second one cannot take its place.
-/

namespace EarlyBoot

structure Logger where
  installed : Bool := false
  filter : LogFilter := .off
deriving DecidableEq

namespace Logger

inductive InstallError where
  | alreadyInstalled
deriving DecidableEq

def InstallError.message : InstallError → String
  | alreadyInstalled =>
    "attempted to set a logger after the logging system was already initialized"

def install (logger : Logger) (filter : LogFilter) : Except InstallError Logger :=
  if logger.installed then .error .alreadyInstalled else .ok ⟨true, filter⟩

/-- Program the serial line, and then install the logger with a filter. The line is programmed
even if the logger cannot be installed. -/
def start (logger : Logger) (filter : LogFilter) : BusAction (Except InstallError Logger) := do
  SerialLine.com1.program
  return logger.install filter

end Logger

end EarlyBoot
