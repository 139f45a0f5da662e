import EarlyBoot.Terminated.Runs
import EarlyBoot.Terminated.Buffer
import EarlyBoot.Numeral.Parse
import EarlyBoot.Numeral.Shown
import EarlyBoot.Fault.Message
import EarlyBoot.Lock
import EarlyBoot.Console.Operation
import EarlyBoot.Loader.ImageHeader
import EarlyBoot.Machine
import EarlyBoot.Proofs.Word
import EarlyBoot.Proofs.Rounding
import EarlyBoot.Proofs.Address.Translation
import EarlyBoot.Proofs.Bytes
import EarlyBoot.Proofs.Lock
import EarlyBoot.Proofs.Running
import EarlyBoot.Proofs.Region.Moving
import EarlyBoot.Proofs.SerialLine
import EarlyBoot.Proofs.SerialLine.Pacing
import EarlyBoot.Proofs.Terminated
import EarlyBoot.Proofs.Terminated.InPlace
import EarlyBoot.Proofs.Terminated.Mirror
import EarlyBoot.Proofs.Terminated.Building
import EarlyBoot.Proofs.Terminated.Order
import EarlyBoot.Proofs.Terminated.Occurrences
import EarlyBoot.Proofs.Terminated.MaximalRuns
import EarlyBoot.Proofs.CommandLine
import EarlyBoot.Proofs.CommandLine.Pieces
import EarlyBoot.Proofs.CommandLine.Calls
import EarlyBoot.Proofs.Options
import EarlyBoot.Proofs.OneLine
import EarlyBoot.Proofs.CommandLine.Joining
import EarlyBoot.Proofs.CommandLine.PlainLines
import EarlyBoot.Proofs.Numeral.Digits
import EarlyBoot.Proofs.Numeral.Positional
import EarlyBoot.Proofs.Numeral.Reading
import EarlyBoot.Proofs.Numeral.Scanning
import EarlyBoot.Proofs.Numeral.Parts
import EarlyBoot.Proofs.Numeral.Draft
import EarlyBoot.Proofs.Numeral.Canonical
import EarlyBoot.Proofs.Numeral.WordHex
import EarlyBoot.Proofs.Console.Steps
import EarlyBoot.Proofs.Console.Teletype
import EarlyBoot.Proofs.Console.Safety
import EarlyBoot.Proofs.Console.Page
import EarlyBoot.Proofs.Console.Lines
import EarlyBoot.Proofs.Console.Ring
import EarlyBoot.Proofs.Console.Uncolored
import EarlyBoot.Proofs.Console.Inscription
import EarlyBoot.Proofs.Console.PlainText
import EarlyBoot.Proofs.Loader.LittleEndian
import EarlyBoot.Proofs.Loader.MapLayout
import EarlyBoot.Proofs.Loader.Lookups
import EarlyBoot.Proofs.Loader.RecordLayout
import EarlyBoot.Proofs.Loader.Strings
import EarlyBoot.Proofs.Loader.Agreement
import EarlyBoot.Proofs.Loader.Announced
import EarlyBoot.Proofs.Loader.MapReads
import EarlyBoot.Proofs.Loader.AvailableMemory
import EarlyBoot.Proofs.Loader.MapSession
import EarlyBoot.Proofs.Loader.ModuleTable
import EarlyBoot.Proofs.Boot.Itinerary
import EarlyBoot.Proofs.Boot.Route
import EarlyBoot.Proofs.Boot.Outcome
import EarlyBoot.Proofs.Boot.Ending
import EarlyBoot.Proofs.Options.Pass
import EarlyBoot.Proofs.Boot.Stages
import EarlyBoot.Proofs.Boot.Script
import EarlyBoot.Proofs.Boot.Wording
import EarlyBoot.Proofs.Boot.Composition
import EarlyBoot.Proofs.Boot.LogLines
import EarlyBoot.Proofs.Boot.Rejection
import EarlyBoot.Proofs.Boot.Filtering
import EarlyBoot.Proofs.Boot.PlainScreen
import EarlyBoot.Proofs.Boot.CompleteScreen
import EarlyBoot.Proofs.Boot.SameReport
import EarlyBoot.Proofs.Boot.MapTable
import EarlyBoot.Proofs.Parking
