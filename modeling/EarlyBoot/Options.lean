import EarlyBoot.CommandLine
import EarlyBoot.Log

/-!
The options on the command line: the flag `verbose`, and `loglevel` with the name of a filter.
Later options override earlier ones. A token that sets no option leaves a remark in the log.
-/

namespace EarlyBoot

structure Options where
  /-- The records that reach the serial line. -/
  filter : LogFilter := .upTo .info
  /-- Whether the memory map and the command line are shown on the screen. -/
  verbose : Bool := false
deriving DecidableEq

namespace Options

/-- One option that a token sets. -/
inductive Setting where
  | verbose
  | filter (filter : LogFilter)
deriving DecidableEq

def verboseName : Bytes := .ofText "verbose"

def logLevelName : Bytes := .ofText "loglevel"

def setting? : CommandLine.Token → Option Setting
  | .flag name => if name = verboseName then some .verbose else none
  | .option key value =>
    if key = logLevelName then (LogFilter.ofName? value).map .filter else none

def logTarget : String := "nekko_kernel::config"

def remark : CommandLine.Token → LogRecord
  | .flag name => ⟨.debug, logTarget, "ignoring flag " ++ Quoted.quote (Bytes.text name)⟩
  | .option key value =>
    if key = logLevelName then
      ⟨.warn, logTarget, "unknown log level " ++ Quoted.quote (Bytes.text value)⟩
    else ⟨.debug, logTarget, "ignoring option " ++ Quoted.quote (Bytes.text key)⟩

def apply (options : Options) : Setting → Options
  | .verbose => { options with verbose := true }
  | .filter filter => { options with filter := filter }

def ofTokens (tokens : List CommandLine.Token) : Options :=
  (tokens.filterMap setting?).foldl apply {}

def remarks (tokens : List CommandLine.Token) : List LogRecord :=
  (tokens.filter (setting? · |>.isNone)).map remark

def ofCommandLine (buffer : Bytes) : Options :=
  ofTokens (CommandLine.tokens buffer)

end Options

end EarlyBoot
