import EarlyBoot.Boot.Sequence
import EarlyBoot.Logger

/-!
The whole run of the kernel on a machine: the serial line is programmed, the boot runs with
paging off and its log is sent, and in the end the processor is parked. A boot that went well
waits for interrupts; any other one stops for good.
-/

namespace EarlyBoot.Machine

open Boot (Run SerialLog logTarget)

/-- The memory of the machine. With paging off the screen appears at its physical address. -/
def loaded (memory : Memory) : LoadedMemory where
  memory := memory
  mapping := .identity
  screen := (DirectMapping.identity.toVirtual Grid.physicalBase).toOption

/-- The boot with the records that frame it. -/
def framed {σ : Type} [Boot.Sink σ] (handoff : Handoff) (m : LoadedMemory) :
    Boot σ BootState := do
  Boot.log .info logTarget
    ("nekkoOS starting, magic " ++ Handoff.magicText handoff.magic ++ ", info at "
      ++ handoff.infoAddress.text)
  let state ← Boot.boot handoff m
  match state with
  | .idle => Boot.log .info logTarget "idle"
  | other => Boot.log .error logTarget ("system halted in state " ++ other.name)
  return state

def park : BootState → BusAction Unit
  | .idle => Bus.hang
  | _ => Bus.stop

/-- The run before the first step, with a fresh console and nothing sent. -/
def start (memory : Memory) (filter : LogFilter) : Run SerialLog where
  console := Console.new (.readAt memory Grid.physicalBase.toNat)
  log := { filter := filter }

/-- Run the kernel on a machine with this memory. Gives the console and the log at the end. -/
def run (handoff : Handoff) (memory : Memory) : BusAction (Run SerialLog) := do
  let logger := match ← Logger.start {} (.upTo .info) with
    | .ok logger => logger
    | .error _ => {}
  let (outcome, run) := (framed handoff (loaded memory)).run.run (start memory logger.filter)
  SerialLine.com1.sendText (LogRecord.lines run.log.sent.toList)
  match outcome with
  | .ok state => park state
  | .error fault => throw fault
  return run

end EarlyBoot.Machine
