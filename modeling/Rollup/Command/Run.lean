import Rollup.Command
import Rollup.Json.Column
import Rollup.Json.Settings
import Rollup.Report

/-! What a command does, given the texts of the files it may read: it prints line after line and may
fail on the way. What was printed before a failure stays printed. -/

namespace Rollup

inductive Failure
  /-- A file that cannot be read or is no dump. -/
  | badColumns (path : String)
  | noColumns (path : String)
  | unknownAggregator (name : String)
  | library (cause : Error)
  deriving DecidableEq, Repr

/-- An unknown aggregator is told without the words for a bad configuration. -/
def Failure.message : Failure → String
  | badColumns path => "cannot read columns from '" ++ path ++ "'"
  | noColumns path => "no columns in '" ++ path ++ "'"
  | unknownAggregator name => (ConfigError.unknownAggregator name).message
  | library cause => cause.message

/-- The exit code after a failure. A program that stops at an overflow has one of its own. -/
def Failure.code : Failure → Nat
  | library .overflow => 101
  | _ => 1

/-- What the program says of its failure. When it stops at an overflow it says nothing more itself. -/
def Failure.report : Failure → String
  | library .overflow => ""
  | failure => "Error: " ++ failure.message ++ "\n"

/-- A run that may fail, with the text printed so far as its state. -/
abbrev Printing := ExceptT Failure (StateM String)

namespace Printing

def line (text : String) : Printing Unit := modify (· ++ (text ++ "\n"))

def lines : List String → Printing Unit
  | [] => pure ()
  | text :: texts => do
    line text
    lines texts

/-- How a run ends, and all that it has printed by then. -/
def finish (printing : Printing Unit) : Except Failure Unit × String := (ExceptT.run printing).run ""

end Printing

namespace Command

/-- The texts of files; none for a file that cannot be read. -/
abbrev Files := String → Option String

def readColumns (files : Files) (path : String) : Except Failure (List Column) :=
  match (files path).bind Column.ofDump? with
  | none => .error (.badColumns path)
  | some [] => .error (.noColumns path)
  | some columns => .ok columns

def settings (files : Files) (options : RowOptions) : Except ConfigError Settings :=
  let found : Except ConfigError Settings :=
    match options.config? with
    | none => .ok .default
    | some path => Settings.load path (files path)
  match found with
  | .error cause => .error cause
  | .ok settings =>
    .ok { settings with fixDuplicates := settings.fixDuplicates || options.fixDuplicates }

/-- The empty row that the options ask for. -/
def builder (files : Files) (options : RowOptions) : Except Failure RowBuilder :=
  match settings files options with
  | .error cause => .error (.library (.config cause))
  | .ok settings =>
    match Aggregator.ofText? options.aggregator with
    | none => .error (.unknownAggregator options.aggregator)
    | some aggregator =>
      match Granularity.parse options.interval options.rowSpan with
      | .error fault => .error (.library (.config (.badInterval fault)))
      | .ok granularity =>
        match RowBuilder.create ⟨aggregator, granularity⟩ settings with
        | .error cause => .error (.library (.config cause))
        | .ok builder => .ok builder

/-- The row made of all columns, in their order. -/
def row (builder : RowBuilder) (columns : List Column) : Except Failure Row :=
  match builder.pushAll columns with
  | .error cause => .error (.library cause)
  | .ok builder =>
    match builder.freeze with
    | .error cause => .error (.library cause)
    | .ok row => .ok row

def runDecode (files : Files) (options : RowOptions) (seek? : Option UInt64) (format : Format) :
    Printing Unit := do
  let columns ← readColumns files options.columns
  let builder ← builder files options
  let row ← row builder columns
  let reading := row.read seek?
  match format with
  | .csv => Printing.lines (Report.csvLines reading)
  | .json => Printing.line (Report.json options.aggregator reading)

def runInspect (files : Files) (options : RowOptions) : Printing Unit := do
  let columns ← readColumns files options.columns
  let builder ← builder files options
  Printing.lines (Report.inspectionLines builder.selection columns)

def run (files : Files) : Command → Printing Unit
  | .decode options seek? format => runDecode files options seek? format
  | .inspect options => runInspect files options

end Command

/-- How a program ends: its exit code and what it wrote. -/
structure Outcome where
  code : Nat
  output : String
  /-- What the program itself writes to standard error. The log is left out, and so are its warnings of
  cells that a cursor passes unpaired; what the runtime adds when the program stops is left out too. -/
  errors : String
  deriving DecidableEq, Repr

def Outcome.ofPrinting (printing : Printing Unit) : Outcome :=
  match printing.finish with
  | (.ok (), output) => ⟨0, output, ""⟩
  | (.error failure, output) => ⟨failure.code, output, failure.report⟩

def usage : String :=
  Report.lines
    ["Usage: rollseq decode [OPTIONS] <COLUMNS>", "       rollseq inspect [OPTIONS] <COLUMNS>", "",
      "Options:", "  --aggregator <NAME>   sum, count, min, max, avg or dev [default: sum]",
      "  --interval <TIME>     width of a bucket [default: 1h]",
      "  --row-span <TIME>     time that a row covers [default: 1d]",
      "  --config <FILE>       configuration file",
      "  --fix-duplicates      replace repeated offsets instead of failing",
      "  --seek <TIMESTAMP>    decode: first point at or after it, in seconds or milliseconds",
      "  --format <FORMAT>     decode: csv or json [default: csv]"]

def Invocation.outcome (files : Command.Files) : Invocation → Outcome
  | .run command => .ofPrinting (command.run files)
  | .help => ⟨0, usage, ""⟩
  | .version => ⟨0, "rollseq 0.1.0\n", ""⟩
  | .misuse => ⟨2, "", usage⟩

end Rollup
