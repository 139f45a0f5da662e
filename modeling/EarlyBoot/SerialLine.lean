import EarlyBoot.Bus
import EarlyBoot.Bytes

/-!
A serial line behind a polled UART. Its registers are ports at fixed distances from a base port.
A byte is sent by waiting until the status register shows room and then writing it to the data
register, so what was sent can be read off the events.
-/

namespace EarlyBoot

/-- A serial line, named by its base port. -/
structure SerialLine where
  base : UInt16
deriving DecidableEq

namespace SerialLine

/-- The first serial line of a PC. -/
def com1 : SerialLine := ⟨0x3F8⟩

/-- The registers of the UART. While the divisor latch is open, the first two hold the divisor
of the line speed. -/
inductive Register where
  | data
  | interruptEnable
  | fifoControl
  | lineControl
  | modemControl
  | lineStatus
deriving DecidableEq

def Register.offset : Register → UInt16
  | data => 0
  | interruptEnable => 1
  | fifoControl => 2
  | lineControl => 3
  | modemControl => 4
  | lineStatus => 5

/-- The port of a register; ports are words of 16 bits. -/
def port (line : SerialLine) (r : Register) : Except Fault UInt16 :=
  if line.base.toNat + r.offset.toNat < UInt16.size then .ok (line.base + r.offset)
  else .error .overflow

/-- 38400 baud, as a divisor of 115200. -/
def divisor : UInt16 := 3

/-- The writes that program the line for 38400 baud, 8 data bits, no parity and one stop bit,
with interrupts off and queues on. -/
def setup : List (Register × UInt8) :=
  [ (.interruptEnable, 0x00),
    (.lineControl, 0x80),
    (.data, divisor.toUInt8),
    (.interruptEnable, (divisor >>> 8).toUInt8),
    (.lineControl, 0x03),
    (.fifoControl, 0xC7),
    (.modemControl, 0x03) ]

def program (line : SerialLine) : BusAction Unit :=
  setup.forM fun (register, value) => do
    Bus.write (← line.port register) value

/-- Whether a status shows room for another byte. -/
def hasRoom (status : UInt8) : Bool :=
  status &&& 0x20 ≠ 0

/-- Wait for room and send one byte. -/
def sendByte (line : SerialLine) (b : UInt8) : BusAction Unit := do
  Bus.await (← line.port .lineStatus) hasRoom
  Bus.write (← line.port .data) b

def send (line : SerialLine) (bs : Bytes) : BusAction Unit :=
  bs.forM line.sendByte

/-- Send a text as UTF-8. -/
def sendText (line : SerialLine) (s : String) : BusAction Unit :=
  line.send (.ofText s)

/-- The bytes sent over the line: those written to its base port right after a read. -/
def sent (line : SerialLine) : List Event → Bytes
  | .read _ _ :: .write p b :: rest =>
    if p = line.base then b :: sent line rest else sent line rest
  | _ :: rest => sent line rest
  | [] => []

end SerialLine

end EarlyBoot
