import EarlyBoot.Console.Basic

/-!
The operations of the console as values, so that a session at the console is a list.
-/

namespace EarlyBoot.Console

inductive Operation where
  | put (byte : UInt8)
  | write (bytes : Bytes)
  | writeString (buffer : Bytes)
  | writeText (text : String)
  | writeChar (char : Char)
  | writeDecimal (value : UInt32)
  | writeSigned (value : Int32) (base : Nat)
  | writeHex (value : UInt32)
  | setColors (colors : Attribute)
  | setForeground (color : Color)
  | setBackground (color : Color)
  | clear
  | moveTo (row column : Nat)
  | cell (row column : Nat)

/-- What an operation answers. -/
inductive Reply where
  | done
  | moved (accepted : Bool)
  | shown (cell : Cell)
deriving DecidableEq

/-- Perform one operation. -/
def perform (c : Console) : Operation → Except Fault (Reply × Console)
  | .put byte => (.done, ·) <$> c.put byte
  | .write bytes => (.done, ·) <$> c.write bytes
  | .writeString buffer => (.done, ·) <$> c.writeString buffer
  | .writeText text => (.done, ·) <$> c.writeText text
  | .writeChar char => (.done, ·) <$> c.writeChar char
  | .writeDecimal value => (.done, ·) <$> c.writeDecimal value
  | .writeSigned value base => (.done, ·) <$> c.writeSigned value base
  | .writeHex value => (.done, ·) <$> c.writeHex value
  | .setColors colors => .ok (.done, c.setColors colors)
  | .setForeground color => .ok (.done, c.setForeground color)
  | .setBackground color => .ok (.done, c.setBackground color)
  | .clear => .ok (.done, c.clear)
  | .moveTo row column =>
    let (accepted, moved) := c.moveTo row column
    .ok (.moved accepted, moved)
  | .cell row column => (.shown ·, c) <$> c.cell row column

/-- The console after operations one after the other, up to the first fault. -/
def performAll (c : Console) : List Operation → Console
  | [] => c
  | operation :: rest =>
    match c.perform operation with
    | .ok (_, after) => after.performAll rest
    | .error _ => c

end EarlyBoot.Console
