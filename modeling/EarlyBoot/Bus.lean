import EarlyBoot.Fault

/-!
The input and output ports of the machine, seen from the outside: which bytes the machine answers
to reads, and which accesses the program makes. A run ends at the first halt, since nothing wakes
the processor up.
-/

namespace EarlyBoot

/-- What the program does to the machine. -/
inductive Event where
  | read (port : UInt16) (value : UInt8)
  | write (port : UInt16) (value : UInt8)
  | disableInterrupts
  | halt
deriving DecidableEq

/-- The machine as far as the program has used it. -/
structure Bus where
  /-- What the next reads return; after these every read returns `Bus.idle`. -/
  pending : List UInt8
  events : Array Event := #[]

/-- An action of the program on the machine. The events before a fault stay. -/
abbrev BusAction := ExceptT Fault (StateM Bus)

namespace Bus

/-- The status of a line with nothing left to send. -/
def idle : UInt8 := 0x20

def record (e : Event) : BusAction Unit :=
  modify fun bus => { bus with events := bus.events.push e }

def write (port : UInt16) (value : UInt8) : BusAction Unit :=
  record (.write port value)

/-- Read `port` again and again until its answer passes `accept`, or until the machine has no
answers of its own left. -/
def readUntil (port : UInt16) (accept : UInt8 → Bool) : List UInt8 → Array Event → Bus
  | [], events => ⟨[], events.push (.read port idle)⟩
  | status :: rest, events =>
    if accept status then ⟨rest, events.push (.read port status)⟩
    else readUntil port accept rest (events.push (.read port status))

/-- Wait until an answer of `port` passes `accept`, which `idle` has to pass. -/
def await (port : UInt16) (accept : UInt8 → Bool) : BusAction Unit :=
  modify fun bus => readUntil port accept bus.pending bus.events

/-- Wait for an interrupt. -/
def halt : BusAction Unit :=
  record .halt

def disableInterrupts : BusAction Unit :=
  record .disableInterrupts

/-- Wait for interrupts forever. The first halt is the last thing that is seen. -/
def hang : BusAction Unit :=
  halt

/-- Stop for good: only a reset brings the machine back. -/
def stop : BusAction Unit := do
  disableInterrupts
  hang

end Bus

end EarlyBoot
