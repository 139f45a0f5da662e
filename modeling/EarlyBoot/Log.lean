import EarlyBoot.Quoted

/-!
Log records. A record has a level, and a filter lets through the records up to its own level, the
most severe ones first. Each record is one line.
-/

namespace EarlyBoot

inductive LogLevel where
  | error
  | warn
  | info
  | debug
  | trace
deriving DecidableEq

namespace LogLevel

def all : List LogLevel :=
  [error, warn, info, debug, trace]

/-- The place of a level; the most severe one comes first. -/
def rank : LogLevel → Nat
  | error => 1
  | warn => 2
  | info => 3
  | debug => 4
  | trace => 5

def name : LogLevel → String
  | error => "ERROR"
  | warn => "WARN"
  | info => "INFO"
  | debug => "DEBUG"
  | trace => "TRACE"

end LogLevel

inductive LogFilter where
  | off
  | upTo (level : LogLevel)
deriving DecidableEq

namespace LogFilter

def all : List LogFilter :=
  off :: LogLevel.all.map upTo

def rank : LogFilter → Nat
  | off => 0
  | upTo level => level.rank

def admits (filter : LogFilter) (level : LogLevel) : Bool :=
  level.rank ≤ filter.rank

theorem admits_iff {filter : LogFilter} {level : LogLevel} :
    filter.admits level = true ↔ level.rank ≤ filter.rank :=
  decide_eq_true_iff

def name : LogFilter → String
  | off => "OFF"
  | upTo level => level.name

/-- The filter with a name, in letters of either case. -/
def ofName? (name : Bytes) : Option LogFilter :=
  all.find? fun filter => Bytes.ofText filter.name == name.map Ascii.toUpper

end LogFilter

structure LogRecord where
  level : LogLevel
  /-- The part of the program that speaks. -/
  target : String
  message : String
deriving DecidableEq

namespace LogRecord

/-- The line for a record; the level has room for five letters. -/
def line (r : LogRecord) : String :=
  "[" ++ String.ofList (r.level.name.toList.rightpad 5 ' ') ++ "] " ++ r.target ++ ": "
    ++ r.message ++ "\r\n"

/-- The text of records one after the other. -/
def lines (records : List LogRecord) : String :=
  String.join (records.map line)

end LogRecord

end EarlyBoot
