import Mathlib.Data.List.Forall2
import Rollup.Command
import Rollup.Proofs.Json.Records
import Rollup.Proofs.Json.Texts
import Rollup.Proofs.Numerals
import Rollup.Report

/-! Listings of points, read back. A reader of either format finds the number of points that is reported, and each
point with its timestamp, its offset, a numeral for its value, and the samples that its count cell stands for. -/

namespace Rollup

namespace Report

/-- What a listing tells of a point, its value in the words of the listing. -/
structure Listed (α : Type) where
  timestamp : Nat
  offset : Nat
  value : α
  samples : Nat

/-- The number of points that a listing reports, and the points that it lists. -/
structure Listing (α : Type) where
  reported : Nat
  points : List (Listed α)

/-- What may stand for a value in a line. Doubles that are not finite have names. -/
def InLine : Value → List Char → Prop
  | .integer n, text => Decimal.number? text = some (n.toInt : ℚ)
  | .float x, text =>
    match x.magnitude with
    | .notANumber => text = "NaN".toList
    | .infinite => text = (if x.negative then "-inf" else "inf").toList
    | .finite _ _ => x.Numeral text

/-- What may stand for a value in a document, where there is no word for doubles that are not finite. -/
def InDocument : Value → Json → Prop
  | .integer n, value => ∃ literal, value = .number literal ∧ Decimal.number? literal = some (n.toInt : ℚ)
  | .float x, value =>
    match x.magnitude with
    | .finite _ _ => ∃ literal, value = .number literal ∧ x.Numeral literal
    | _ => value = .null

/-- The samples that a count stands for: one if there is no count, none if it is below zero or not a number, and a
double without its fraction. -/
def Samples : Option Value → Nat → Prop
  | none, samples => samples = 1
  | some (.integer n), samples => (samples : ℤ) = max n.toInt 0
  | some (.float x), samples =>
    match x.value? with
    | some q => samples = min ⌊q⌋₊ Word.largest
    | none => samples = if x.magnitude = .infinite ∧ x.negative = false then Word.largest else 0

structure Listed.Tells {α : Type} (stands : Value → α → Prop) (entry : Listed α) (point : Point) : Prop where
  timestamp : entry.timestamp = point.timestamp.toNat
  offset : entry.offset = point.offset
  value : stands point.value entry.value
  samples : Samples point.count? entry.samples

structure Listing.Tells {α : Type} (stands : Value → α → Prop) (listing : Listing α) (points : List Point) : Prop where
  reported : listing.reported = points.length
  points : List.Forall₂ (Listed.Tells stands) listing.points points

/-- The line of a point has four parts with commas between them. -/
def readLine? (line : List Char) : Option (Listed (List Char)) :=
  match line.splitOn ',' with
  | [timestamp, offset, value, samples] =>
    match Word.digits? timestamp, Word.digits? offset, Word.digits? samples with
    | some timestamp, some offset, some samples => some ⟨timestamp, offset, value, samples⟩
    | _, _, _ => none
  | _ => none

def readHeading? (heading : List Char) : Option Nat :=
  match heading.splitOn ',' with
  | [_, _, points, _] => (" points=".toList.isPrefixOf? points).bind Word.digits?
  | _ => none

/-- A heading, the names of the parts, and a line for each point. Every line is ended. -/
def readCsv? (text : String) : Option (Listing (List Char)) :=
  match text.toList.splitOn '\n' with
  | heading :: names :: rest =>
    if names = "timestamp,offset,value,count".toList ∧ rest.getLast? = some [] then
      match readHeading? heading, rest.dropLast.mapM readLine? with
      | some reported, some points => some ⟨reported, points⟩
      | _, _ => none
    else none
  | _ => none

def readNumber? : Json → Option Nat
  | .number literal => Word.digits? literal
  | _ => none

def readPoint? (value : Json) : Option (Listed Json) :=
  match value.fields? ["count", "offset", "timestamp", "value"] with
  | some [some samples, some offset, some timestamp, some value] =>
    match readNumber? timestamp, readNumber? offset, readNumber? samples with
    | some timestamp, some offset, some samples => some ⟨timestamp, offset, value, samples⟩
    | _, _, _ => none
  | _ => none

def readDocument? (value : Json) : Option (Listing Json) :=
  match value.fields? ["aggregator", "base_time", "count", "data", "metric", "skipped"] with
  | some [_, _, some reported, some data, _, _] =>
    match readNumber? reported, data.list? readPoint? with
    | some reported, some points => some ⟨reported, points⟩
    | _, _ => none
  | _ => none

def readJson? (text : String) : Option (Listing Json) := (Json.parse? text).bind readDocument?

/-- A reader of the text finds the points, and how many they are. -/
def Lists (points : List Point) (text : String) : Format → Prop
  | .csv => ∃ listing, readCsv? text = some listing ∧ listing.Tells InLine points
  | .json => ∃ listing, readJson? text = some listing ∧ listing.Tells InDocument points

section Telling

private theorem ofInt_eq (n : Int) : Json.ofInt n = .number n.repr.toList := by
  cases n with
  | ofNat n =>
    have notNegative : ¬ Int.ofNat n < 0 := Int.not_lt.mpr (Int.natCast_nonneg n)
    rw [Json.ofInt, if_neg notNegative, show (Int.ofNat n).repr = n.repr from rfl, Nat.toList_repr]
    rfl
  | negSucc n =>
    rw [Json.ofInt, if_pos (Int.negSucc_lt_zero n), show (Int.negSucc n).repr = "-" ++ (n + 1).repr from rfl,
      String.toList_append, Nat.toList_repr]
    rfl

theorem samples_toNat (point : Point) : Samples point.count? point.samples.toNat := by
  unfold Point.samples
  cases point.count? with
  | none => rfl
  | some count =>
    cases count with
    | integer n =>
      have small : n.toInt.toNat < 2 ^ 64 := by
        have := n.toInt_lt
        omega
      change ((UInt64.ofNat n.toInt.toNat).toNat : ℤ) = max n.toInt 0
      rw [UInt64.toNat_ofNat', Nat.mod_eq_of_lt small, Int.toNat_eq_max]
    | float x =>
      simp only [Samples]
      split
      · next q finite => exact x.toNat_truncate_of_value? finite
      · next other => exact x.toNat_truncate_of_not_finite other

theorem inLine_text (value : Value) : InLine value value.text.toList := by
  cases value with
  | integer n => exact Decimal.number?_repr n.toInt
  | float x =>
    rw [Value.text, String.toList_ofList, InLine, Binary64.listing]
    cases shape : x.magnitude with
    | notANumber => rfl
    | infinite => cases sign : x.negative <;> simp [Binary64.withSign, sign]
    | finite mantissa exponent => exact Binary64.numeral_write (.inl rfl) shape

theorem inDocument_valueJson (value : Value) : InDocument value (valueJson value) := by
  cases value with
  | integer n => exact ⟨_, ofInt_eq n.toInt, Decimal.number?_repr n.toInt⟩
  | float x =>
    rw [valueJson, Json.ofBinary64, Binary64.finiteText?, InDocument]
    cases shape : x.magnitude with
    | notANumber => rfl
    | infinite => rfl
    | finite mantissa exponent => exact ⟨_, rfl, Binary64.numeral_write (.inr rfl) shape⟩

/-- How a point is listed, with what is written for its value. -/
def Listed.ofPoint {α : Type} (tell : Value → α) (point : Point) : Listed α :=
  ⟨point.timestamp.toNat, point.offset, tell point.value, point.samples.toNat⟩

def Listing.ofPoints {α : Type} (tell : Value → α) (points : List Point) : Listing α :=
  ⟨points.length, points.map (.ofPoint tell)⟩

theorem Listing.tells_ofPoints {α : Type} {stands : Value → α → Prop} {tell : Value → α}
    (each : ∀ value, stands value (tell value)) (points : List Point) :
    (Listing.ofPoints tell points).Tells stands points := by
  refine ⟨rfl, ?_⟩
  rw [Listing.ofPoints, List.forall₂_map_left_iff, List.forall₂_same]
  exact fun point _ => ⟨rfl, rfl, each point.value, samples_toNat point⟩

end Telling

section Words

open Json

variable {text : List Char} {c : Char}

private theorem not_mem_of_isWordChar (mark : Token.isWordChar c = false)
    (word : ∀ c ∈ text, Token.isWordChar c = true) : c ∉ text := by
  intro member
  rw [word c member] at mark
  cases mark

private theorem isLiteral_repr (n : Int) : Number.isLiteral n.repr.toList = true := by
  cases n with
  | ofNat n =>
    rw [show (Int.ofNat n).repr = n.repr from rfl, Nat.toList_repr]
    exact Number.isLiteral_toDigits n
  | negSucc n =>
    rw [show (Int.negSucc n).repr = "-" ++ (n + 1).repr from rfl, String.toList_append, Nat.toList_repr]
    exact Number.isUnsigned_toDigits (n + 1)

theorem isWordChar_text (value : Value) : ∀ c ∈ value.text.toList, Token.isWordChar c = true := by
  cases value with
  | integer n => exact Number.isWordChar_of_isLiteral (isLiteral_repr n.toInt)
  | float x =>
    rw [Value.text, String.toList_ofList]
    exact x.isWordChar_listing

theorem printable_valueJson (value : Value) : Printable (valueJson value) := by
  cases value with
  | integer n =>
    rw [valueJson, ofInt_eq]
    exact .number (isLiteral_repr n.toInt)
  | float x =>
    rw [valueJson, Json.ofBinary64]
    split
    · next finite => exact .number (x.isLiteral_finiteText? finite)
    · exact .null

end Words

section Csv

private theorem splitOn_lines {texts : List String} (plain : ∀ text ∈ texts, '\n' ∉ text.toList) :
    (lines texts).toList.splitOn '\n' = texts.map String.toList ++ [[]] := by
  rw [lines, String.toList_join, List.flatMap_map]
  induction texts with
  | nil => rfl
  | cons text texts ih =>
    obtain ⟨first, others⟩ := List.forall_mem_cons.mp plain
    rw [List.flatMap_cons, String.toList_append, List.append_assoc, show "\n".toList = ['\n'] from rfl,
      List.singleton_append, List.splitOn_append_cons_self_of_not_mem first, ih others, List.map_cons, List.cons_append]

private theorem isWordChar_repr (n : Nat) : ∀ c ∈ n.repr.toList, Json.Token.isWordChar c = true := by
  rw [Nat.toList_repr]
  exact Json.Number.isWordChar_of_isLiteral (Json.Number.isLiteral_toDigits n)

private theorem isWordChar_digitChar : ∀ digit < 16, Json.Token.isWordChar (Nat.digitChar digit) = true := by decide

private theorem isWordChar_hex (bytes : Bytes) : ∀ c ∈ bytes.hex.toList, Json.Token.isWordChar c = true := by
  rw [Bytes.hex, String.toList_ofList]
  induction bytes with
  | nil => exact fun _ absent => by cases absent
  | cons byte bytes ih =>
    have small := byte.toNat_lt
    exact List.forall_mem_cons.mpr ⟨isWordChar_digitChar _ (by omega),
      List.forall_mem_cons.mpr ⟨isWordChar_digitChar _ (by omega), ih⟩⟩

/-- A text that may stand between two commas of a line. -/
structure Part (text : List Char) : Prop where
  comma : ',' ∉ text
  newline : '\n' ∉ text

private theorem Part.word {text : List Char} (word : ∀ c ∈ text, Json.Token.isWordChar c = true) : Part text :=
  ⟨not_mem_of_isWordChar (by decide) word, not_mem_of_isWordChar (by decide) word⟩

private theorem Part.repr (n : Nat) : Part n.repr.toList := .word (isWordChar_repr n)

private theorem Part.append {label text : String} (first : Part label.toList) (second : Part text.toList) :
    Part (label ++ text).toList := by
  rw [String.toList_append]
  exact ⟨by simp [first.comma, second.comma], by simp [first.newline, second.newline]⟩

/-- What is split at its commas, and has no end of a line. -/
private theorem splitOn_parts {first second third last : List Char} (isFirst : Part first) (isSecond : Part second)
    (isThird : Part third) (isLast : Part last) :
    (first ++ ',' :: (second ++ ',' :: (third ++ ',' :: last))).splitOn ',' = [first, second, third, last] ∧
      '\n' ∉ first ++ ',' :: (second ++ ',' :: (third ++ ',' :: last)) := by
  refine ⟨?_, by simp [isFirst.newline, isSecond.newline, isThird.newline, isLast.newline]⟩
  rw [List.splitOn_append_cons_self_of_not_mem isFirst.comma, List.splitOn_append_cons_self_of_not_mem isSecond.comma,
    List.splitOn_append_cons_self_of_not_mem isThird.comma, List.splitOn_eq_singleton isLast.comma]

private theorem pointLine_toList (point : Point) :
    (pointLine point).toList = point.timestamp.toNat.repr.toList ++ ',' :: (point.offset.repr.toList ++
      ',' :: (point.value.text.toList ++ ',' :: point.samples.toNat.repr.toList)) := by
  rw [pointLine]
  simp only [String.toList_append, List.append_assoc]
  rfl

private theorem digits?_repr (n : Nat) : Word.digits? n.repr.toList = some n := by
  rw [Nat.toList_repr, Word.digits?_toDigits]

/-- A line of a point can be split, and is a line. -/
private theorem splitOn_pointLine (point : Point) :
    (pointLine point).toList.splitOn ',' = [point.timestamp.toNat.repr.toList, point.offset.repr.toList,
      point.value.text.toList, point.samples.toNat.repr.toList] ∧ '\n' ∉ (pointLine point).toList := by
  rw [pointLine_toList]
  exact splitOn_parts (.repr _) (.repr _) (.word (isWordChar_text point.value)) (.repr _)

theorem readLine?_pointLine (point : Point) :
    readLine? (pointLine point).toList = some (.ofPoint (fun value => value.text.toList) point) := by
  simp only [readLine?, (splitOn_pointLine point).1, digits?_repr]
  rfl

private theorem heading_toList (reading : Reading) :
    (heading reading).toList = ("# metric=" ++ reading.row.key.metric.hex).toList ++
      ',' :: ((" base_time=" ++ reading.row.key.baseTime.toNat.repr).toList ++
        ',' :: ((" points=" ++ reading.points.length.repr).toList ++
          ',' :: (" skipped=" ++ reading.skipped.repr).toList)) := by
  delta heading
  simp only [String.toList_append, List.append_assoc]
  rfl

private theorem splitOn_heading (reading : Reading) :
    (heading reading).toList.splitOn ',' = [("# metric=" ++ reading.row.key.metric.hex).toList,
      (" base_time=" ++ reading.row.key.baseTime.toNat.repr).toList, (" points=" ++ reading.points.length.repr).toList,
      (" skipped=" ++ reading.skipped.repr).toList] ∧ '\n' ∉ (heading reading).toList := by
  have label {label : String} (comma : ',' ∉ label.toList) (newline : '\n' ∉ label.toList) : Part label.toList :=
    ⟨comma, newline⟩
  rw [heading_toList]
  exact splitOn_parts ((label (by decide) (by decide)).append (.word (isWordChar_hex _)))
    ((label (by decide) (by decide)).append (.repr _)) ((label (by decide) (by decide)).append (.repr _))
    ((label (by decide) (by decide)).append (.repr _))

theorem readHeading?_heading (reading : Reading) :
    readHeading? (heading reading).toList = some reading.points.length := by
  have labelled : " points=".toList.isPrefixOf? (" points=" ++ reading.points.length.repr).toList =
      some reading.points.length.repr.toList := by
    rw [String.toList_append]
    rfl
  simp only [readHeading?, (splitOn_heading reading).1, labelled, Option.bind_some, digits?_repr]

theorem readCsv?_csvLines (reading : Reading) :
    readCsv? (lines (csvLines reading)) = some (.ofPoints (fun value => value.text.toList) reading.points) := by
  have plain : ∀ text ∈ heading reading :: "timestamp,offset,value,count" :: reading.points.map pointLine,
      '\n' ∉ text.toList := by
    refine List.forall_mem_cons.mpr ⟨(splitOn_heading reading).2, List.forall_mem_cons.mpr ⟨by decide, ?_⟩⟩
    intro text member
    obtain ⟨point, _, rfl⟩ := List.mem_map.mp member
    exact (splitOn_pointLine point).2
  have pieces : (lines (csvLines reading)).toList.splitOn '\n' = (heading reading).toList ::
      "timestamp,offset,value,count".toList ::
        (reading.points.map (fun point => (pointLine point).toList) ++ [[]]) := by
    rw [csvLines, splitOn_lines plain, List.map_cons, List.map_cons, List.map_map]
    rfl
  simp only [readCsv?, pieces, List.getLast?_concat, List.dropLast_concat, readHeading?_heading,
    Json.mapM_map readLine?_pointLine, and_self, if_true]
  rfl

end Csv

section Document

open Json

private theorem readNumber?_ofNat (n : Nat) : readNumber? (.ofNat n) = some n := Word.digits?_toDigits n

theorem readPoint?_pointJson (point : Point) : readPoint? (pointJson point) = some (.ofPoint valueJson point) := by
  have fields : (pointJson point).fields? ["count", "offset", "timestamp", "value"] =
      some [some (.ofNat point.samples.toNat), some (.ofNat point.offset), some (.ofNat point.timestamp.toNat),
        some (valueJson point.value)] :=
    fields?_record rfl (by decide)
  simp only [readPoint?, fields, readNumber?_ofNat]
  rfl

theorem printable_pointJson (point : Point) : Printable (pointJson point) := by
  refine .record ?_
  simp only [List.forall_mem_cons, List.not_mem_nil, false_implies, implies_true, and_true]
  exact ⟨.ofNat _, .ofNat _, .ofNat _, printable_valueJson point.value⟩

private theorem readDocument?_of_fields {document aggregator baseTime metric skipped : Json} {points : List Point}
    (fields : document.fields? ["aggregator", "base_time", "count", "data", "metric", "skipped"] =
      some [some aggregator, some baseTime, some (.ofNat points.length), some (.array (points.map pointJson)),
        some metric, some skipped]) :
    readDocument? document = some (.ofPoints valueJson points) := by
  simp only [readDocument?, fields, readNumber?_ofNat, list?_array readPoint?_pointJson]
  rfl

theorem readJson?_json (aggregator : String) (reading : Reading) :
    readJson? (json aggregator reading ++ "\n") = some (.ofPoints valueJson reading.points) := by
  rw [readJson?, json, Printable.parse?_prettyText ?_ "\n" (by decide), Option.bind_some]
  · exact readDocument?_of_fields (fields?_record rfl (by decide))
  · refine .record ?_
    simp only [List.forall_mem_cons, List.not_mem_nil, false_implies, implies_true, and_true]
    refine ⟨.text _, .ofNat _, .ofNat _, .array fun item member => ?_, .text _, .ofNat _⟩
    obtain ⟨point, _, rfl⟩ := List.mem_map.mp member
    exact printable_pointJson point

end Document

theorem lists_csvLines (reading : Reading) : Lists reading.points (lines (csvLines reading)) .csv :=
  ⟨_, readCsv?_csvLines reading, Listing.tells_ofPoints inLine_text reading.points⟩

theorem lists_json (aggregator : String) (reading : Reading) :
    Lists reading.points (json aggregator reading ++ "\n") .json :=
  ⟨_, readJson?_json aggregator reading, Listing.tells_ofPoints inDocument_valueJson reading.points⟩

end Report

end Rollup
