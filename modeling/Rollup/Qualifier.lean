import Rollup.Field

/-! Column qualifiers name an aggregation and carry a cell's field. In current form the aggregation
is one id byte; in legacy form it is its name and a colon. -/

namespace Rollup

/-- Where the field of a qualifier starts. -/
inductive Encoding
  | current
  | legacy (nameLength : Nat)
  deriving DecidableEq, Repr

def Encoding.fieldStart : Encoding → Nat
  | current => 1
  | legacy nameLength => nameLength

def Encoding.text : Encoding → String
  | current => "Current"
  | legacy nameLength => "Legacy \x7b prefix_len: " ++ Nat.repr nameLength ++ " \x7d"

namespace Qualifier

def current (id : UInt8) (field : Field) : Bytes := id :: field.bytes

/-- A name's bytes and a colon. -/
def legacyName (name : String) : Bytes := name.toUTF8.data.toList ++ [58]

def legacy (name : String) (field : Field) : Bytes := legacyName name ++ field.bytes

end Qualifier

/-- The stream that takes a cell, and the form of the cell's qualifier. -/
structure Route where
  stream : StreamKind
  encoding : Encoding
  deriving DecidableEq, Repr

/-- The cells that a row's reader wants: those of one aggregation, and the counts beside them when
a count id is given. -/
structure Selection where
  primary : Aggregator
  primaryId : UInt8
  countId? : Option UInt8
  deriving DecidableEq, Repr

namespace Selection

def counted (selection : Selection) : Bool := selection.countId?.isSome

/-- Ids are looked at before names, and the values before the counts. -/
def classify (selection : Selection) (qualifier : Bytes) : Except AppendError Route :=
  let valueName := Qualifier.legacyName selection.primary.name
  let countName := Qualifier.legacyName Aggregator.count.name
  if qualifier.head? = some selection.primaryId then .ok ⟨.value, .current⟩
  else if selection.counted ∧ qualifier.head? = selection.countId? then .ok ⟨.count, .current⟩
  else if Bytes.startsWith valueName qualifier then .ok ⟨.value, .legacy valueName.length⟩
  else if selection.counted ∧ Bytes.startsWith countName qualifier then
    .ok ⟨.count, .legacy countName.length⟩
  else .error (.foreignQualifier qualifier selection.primary selection.counted)

end Selection

end Rollup
