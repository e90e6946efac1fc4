import Rollup.Word

/-! The command line: one of two commands, a file of columns, and options. An option is given as
`--name value` or `--name=value`, at most once, and a value that begins with a dash only in the
second way. After `--` everything is a file. -/

namespace Rollup

inductive Format
  | csv
  | json
  deriving DecidableEq, Repr

def Format.ofName? : String → Option Format
  | "csv" => some .csv
  | "json" => some .json
  | _ => none

/-- Which row is read, and how. -/
structure RowOptions where
  columns : String
  aggregator : String
  interval : String
  rowSpan : String
  config? : Option String
  fixDuplicates : Bool
  deriving DecidableEq, Repr

inductive Command
  | decode (options : RowOptions) (seek? : Option UInt64) (format : Format)
  | inspect (options : RowOptions)
  deriving DecidableEq, Repr

/-- What a command line asks for; `misuse` if it is not understood. -/
inductive Invocation
  | run (command : Command)
  | help
  | version
  | misuse
  deriving DecidableEq, Repr

namespace Command

inductive Verb
  | decode
  | inspect
  deriving DecidableEq, Repr

inductive Key
  | aggregator
  | interval
  | rowSpan
  | config
  | fixDuplicates
  | seek
  | format
  deriving DecidableEq, Repr

/-- Seeking and formats are for decoding only. -/
def Key.ofName? (verb : Verb) : String → Option Key
  | "aggregator" => some .aggregator
  | "interval" => some .interval
  | "row-span" => some .rowSpan
  | "config" => some .config
  | "fix-duplicates" => some .fixDuplicates
  | "seek" => if verb = .decode then some .seek else none
  | "format" => if verb = .decode then some .format else none
  | _ => none

/-- Whether a key may have this value. -/
def Key.admits : Key → String → Bool
  | .seek, value => (Word.ofText? value.toList).isSome
  | .format, value => (Format.ofName? value).isSome
  | .config, value => value ≠ ""
  | .fixDuplicates, _ => false
  | _, _ => true

/-- The arguments understood so far. -/
structure Given where
  values : List (Key × String)
  file? : Option String
  deriving DecidableEq, Repr

namespace Given

def value? (given : Given) (key : Key) : Option String :=
  (given.values.find? fun entry => entry.1 == key).map (·.2)

def set? (given : Given) (key : Key) (value : String) : Option Given :=
  if (given.value? key).isNone && key.admits value then
    some { given with values := (key, value) :: given.values }
  else none

/-- A switch has no value of its own. -/
def switch? (given : Given) (key : Key) : Option Given :=
  if (given.value? key).isNone then some { given with values := (key, "") :: given.values }
  else none

def setFile? (given : Given) (file : String) : Option Given :=
  if given.file?.isNone && file ≠ "" then some { given with file? := some file } else none

def command? (verb : Verb) (given : Given) : Option Command :=
  match given.file? with
  | none => none
  | some columns =>
    let options : RowOptions :=
      { columns
        aggregator := (given.value? .aggregator).getD "sum"
        interval := (given.value? .interval).getD "1h"
        rowSpan := (given.value? .rowSpan).getD "1d"
        config? := given.value? .config
        fixDuplicates := (given.value? .fixDuplicates).isSome }
    match verb with
    | .decode =>
      let seek? := (given.value? .seek).bind fun value => Word.ofText? value.toList
      let format := ((given.value? .format).bind Format.ofName?).getD .csv
      some (.decode options seek? format)
    | .inspect => some (.inspect options)

end Given

/-- One argument by its form. -/
inductive Argument
  | separator
  | long (name : List Char) (value? : Option String)
  | short (letters : List Char)
  | plain
  deriving DecidableEq, Repr

def Argument.ofText (text : String) : Argument :=
  match text.toList with
  | ['-', '-'] => .separator
  | '-' :: '-' :: rest =>
    match rest.dropWhile (· ≠ '=') with
    | [] => .long rest none
    | _ :: value => .long (rest.takeWhile (· ≠ '=')) (some (String.ofList value))
  | '-' :: letter :: rest => .short (letter :: rest)
  | _ => .plain

def ofOption : Option Command → Invocation
  | some command => .run command
  | none => .misuse

/-- Arguments after the separator are files, whatever they begin with. -/
def afterSeparator (verb : Verb) (given : Given) : List String → Invocation
  | [] => ofOption (given.command? verb)
  | text :: rest =>
    match given.setFile? text with
    | some given => afterSeparator verb given rest
    | none => .misuse

/-- Arguments of a command. The option given last may still wait for its value. -/
def arguments (verb : Verb) (given : Given) (waiting? : Option Key) : List String → Invocation
  | [] => if waiting?.isSome then .misuse else ofOption (given.command? verb)
  | text :: rest =>
    match Argument.ofText text, waiting? with
    | .plain, some key =>
      match given.set? key text with
      | some given => arguments verb given none rest
      | none => .misuse
    | .plain, none =>
      match given.setFile? text with
      | some given => arguments verb given none rest
      | none => .misuse
    | _, some _ => .misuse
    | .separator, none => afterSeparator verb given rest
    | .short letters, none => if letters.head? = some 'h' then .help else .misuse
    | .long name value?, none =>
      if name = "help".toList then if value?.isNone then .help else .misuse
      else
        match Key.ofName? verb (String.ofList name), value? with
        | none, _ => .misuse
        | some key, some value =>
          match given.set? key value with
          | some given => arguments verb given none rest
          | none => .misuse
        | some .fixDuplicates, none =>
          match given.switch? .fixDuplicates with
          | some given => arguments verb given none rest
          | none => .misuse
        | some key, none => arguments verb given (some key) rest

end Command

namespace Invocation

open Command

/-- Help is on the whole program or on one of its words, and on nothing else. -/
def ofTopic : List String → Invocation
  | [] | ["decode"] | ["inspect"] | ["help"] => .help
  | _ => .misuse

def ofArguments : List String → Invocation
  | [] => .misuse
  | "decode" :: rest => arguments .decode ⟨[], none⟩ none rest
  | "inspect" :: rest => arguments .inspect ⟨[], none⟩ none rest
  | "help" :: topic => ofTopic topic
  | first :: _ =>
    match Argument.ofText first with
    | .short ('h' :: _) => .help
    | .short ('V' :: _) => .version
    | .long name none =>
      if name = "help".toList then .help
      else if name = "version".toList then .version
      else .misuse
    | _ => .misuse

end Invocation

end Rollup
