import Rollup.Proofs.FirstColumn
import Rollup.Proofs.RandomAccess
import Rollup.Report

/-! Columns are inspected without a row. What is said of a column is what a row makes of it that has nothing else: it
takes the column if all is well with it, and reads the same point from it; else it refuses it for the reason that was
given. -/

namespace Rollup

namespace Report

/-- What an inspection comes to. A column is routed, its field is read and its payload decoded, unless a step fails. -/
inductive Finding
  | unrouted (cause : AppendError)
  | unread (route : Route) (cause : CellError)
  | undecoded (route : Route) (field : Field) (cause : CellError)
  | decoded (route : Route) (field : Field) (value : Value)
  deriving DecidableEq

def inspect (selection : Selection) (column : Column) : Finding :=
  match selection.classify column.qualifier with
  | .error cause => .unrouted cause
  | .ok route =>
    match Field.read column.qualifier route.encoding.fieldStart with
    | .error cause => .unread route cause
    | .ok field =>
      match Value.decode field column.value with
      | .error cause => .undecoded route field cause
      | .ok value => .decoded route field value

namespace Finding

def outcome : Finding → Except Error (Field × Value)
  | unrouted cause => .error (.append cause)
  | unread _ cause | undecoded _ _ cause => .error (.cell cause)
  | decoded _ field value => .ok (field, value)

/-- What is said before the value or the reason. -/
def heading (column : Column) : Finding → String
  | unrouted _ => "qualifier=" ++ Bytes.hex column.qualifier ++ " "
  | unread route _ => "stream=" ++ route.stream.name ++ " "
  | undecoded route field _ | decoded route field _ =>
    "stream=" ++ route.stream.name ++ " encoding=" ++ route.encoding.text ++ " offset=" ++ Nat.repr field.offset ++
      " width=" ++ Nat.repr field.width ++ " " ++ field.kind.name ++ " value="

def line (column : Column) (finding : Finding) : String :=
  finding.heading column ++
    match finding.outcome with
    | .error cause => cause.message
    | .ok (_, value) => value.text

end Finding

variable {selection : Selection} {column : Column}

theorem describe_eq_line (selection : Selection) (column : Column) :
    describe selection column = (inspect selection column).line column := by
  unfold describe inspect
  cases selection.classify column.qualifier with
  | error cause => rfl
  | ok route =>
    dsimp only
    cases Field.read column.qualifier route.encoding.fieldStart with
    | error cause => rfl
    | ok field =>
      dsimp only
      cases Value.decode field column.value <;> rfl

/-- An inspection fails as the making of an entry does, and decodes the payload of the entry. -/
theorem outcome_inspect (selection : Selection) (column : Column) :
    (inspect selection column).outcome =
      (selection.entry column).map fun made => (made.2.field, made.2.cell.value) := by
  unfold inspect Selection.entry
  cases selection.classify column.qualifier with
  | error cause => rfl
  | ok route =>
    dsimp only
    cases Field.read column.qualifier route.encoding.fieldStart with
    | error cause => rfl
    | ok field =>
      dsimp only [Value.decode]
      -- The fit of the payload is kept in an entry, so the check is split where it makes one.
      split
      · next decoded =>
        split
        · next refused =>
          rw [refused] at decoded
          cases decoded
          rfl
        · next fits =>
          rw [fits] at decoded
          cases decoded
      · next decoded =>
        split
        · next refused =>
          rw [refused] at decoded
          cases decoded
        · next fits =>
          rw [fits] at decoded
          cases decoded
          rfl

end Report

/-- Where no counts are read every cell is a value. -/
theorem Selection.stream_of_countless {selection : Selection} {qualifier : Bytes} {route : Route}
    (countless : selection.counted = false) (routed : selection.classify qualifier = .ok route) :
    route.stream = .value := by
  simp only [classify, countless, Bool.false_eq_true, false_and, if_false] at routed
  split_ifs at routed <;> cases routed <;> rfl

namespace RowBuilder

section First
variable {query : Query} {settings : Settings} {start : RowBuilder} {column : Column}

/-- A builder that holds no cell takes every column that makes an entry. -/
theorem append_of_empty (holds : Holds start [] start) (column : Column) :
    (start.append column).1 = (start.selection.entry column).map fun _ => () := by
  cases made : start.selection.entry column with
  | error cause =>
    rw [append_eq, made]
    rfl
  | ok result =>
    obtain ⟨kind, entry⟩ := result
    have admitted : Ledger.Admits start.fixDuplicates (start.selection.ledger kind []) entry := by
      rintro _ ⟨⟩
    rw [holds.append_of_admits made admitted]
    rfl

variable (created : create query settings = .ok start) (admits : settings.layout.Admits column.rowKey)
include created admits

private theorem fresh_offered : start.key? = none ∧ (Feed.push column).Offers start.layout := by
  rw [(create_ok created).2]
  exact ⟨rfl, admits⟩

/-- A column pushed to a new builder is refused just if it makes no entry. -/
theorem push_created : (start.push column).1 = (start.selection.entry column).map fun _ => () := by
  obtain ⟨fresh, offers⟩ := fresh_offered created admits
  obtain ⟨key, _, pushed⟩ := feed_of_offers fresh offers
  have keyed : start.push column = { start with key? := some key }.append column := pushed
  calc
    (start.push column).1 = ({ start with key? := some key }.append column).1 := by rw [keyed]
    _ = (start.append column).1 := by rw [append_rekey]
    _ = (start.selection.entry column).map fun _ => () := append_of_empty (create_holds created) column

/-- Without counts a row of one column has one point. -/
theorem freeze_of_one {kind : StreamKind} {entry : Entry} (countless : start.selection.counted = false)
    (made : start.selection.entry column = .ok (kind, entry)) :
    ∃ row, (start.push column).2.freeze = .ok row ∧ row.points = [row.point (entry.cell, none)] := by
  obtain ⟨fresh, offers⟩ := fresh_offered created admits
  obtain ⟨row, frozen⟩ : ∃ row, (start.push column).2.freeze = .ok row :=
    freeze_isOk_iff.mpr ((key?_feed_iff fresh (.push column)).mpr offers)
  have taken : start.accepted [.push column] = [column] := by
    have verdict := push_created created admits
    rw [made] at verdict
    simp only [accepted, RowBuilder.feed]
    generalize start.push column = outcome at verdict ⊢
    obtain ⟨result, after⟩ := outcome
    cases verdict
    rfl
  obtain ⟨_, encoding, routed, _⟩ := Selection.entry_ok_iff.mp made
  have value : kind = .value := Selection.stream_of_countless countless routed
  subst value
  have cells : start.selection.cells [column] = ([entry.cell], none) := by
    have ledger := Selection.ledger_concat [] made
    simp only [List.nil_append] at ledger
    simp only [Selection.cells, ledger, countless]
    rfl
  have packs := (feedAll_holds created [.push column]).freeze frozen
  rw [taken, cells] at packs
  exact ⟨row, frozen, Row.points_countless packs⟩

end First

end RowBuilder

open Report in
/-- What is said of a column is the line on its inspection. A new builder takes the column just if nothing was found
wrong with it, and refuses it for the reason found. Without counts its row then has one point, which is the one
described. -/
theorem RowBuilder.inspection_foretells_push {query : Query} {settings : Settings} {start : RowBuilder}
    {column : Column} (created : create query settings = .ok start)
    (admits : settings.layout.Admits column.rowKey) :
    describe start.selection column = (inspect start.selection column).line column ∧
      (start.push column).1 = (inspect start.selection column).outcome.map (fun _ => ()) ∧
      (query.aggregator.needsCount = false → ∀ route field value,
        inspect start.selection column = .decoded route field value → ∃ row point,
          (start.push column).2.freeze = .ok row ∧ Cursor.Yields row (.start row) [point] ∧
          point.offset = field.offset ∧ point.value = value ∧
          describe start.selection column =
            "stream=" ++ route.stream.name ++ " encoding=" ++ route.encoding.text ++ " offset=" ++
              Nat.repr point.offset ++ " width=" ++ Nat.repr field.width ++ " " ++ field.kind.name ++ " value=" ++
              point.value.text) := by
  have outcome := outcome_inspect start.selection column
  refine ⟨describe_eq_line _ _, ?_, ?_⟩
  · rw [push_created created admits, outcome]
    cases start.selection.entry column <;> rfl
  · intro direct route field value found
    have countless : start.selection.counted = false := (select_ok (create_ok created).1).2.2.1.trans direct
    rw [found] at outcome
    cases made : start.selection.entry column with
    | error cause =>
      rw [made] at outcome
      cases outcome
    | ok result =>
      obtain ⟨kind, entry⟩ := result
      rw [made] at outcome
      cases outcome
      obtain ⟨row, frozen, points⟩ := freeze_of_one created admits countless made
      have yields : Cursor.Yields row (.start row) row.points := Cursor.yields_drain row (.start row)
      rw [points] at yields
      refine ⟨row, _, frozen, yields, rfl, rfl, ?_⟩
      rw [describe_eq_line, found]
      rfl

/-! Sums without counts. One column names them in mixed case and holds a negative number; the other holds a float of
three bytes. -/

namespace Gappy

def sumQuery : Query := { query with aggregator := .sum }

def sumStart : RowBuilder := { start with selection := ⟨.sum, 0, none⟩ }

def namedColumn : Column := ⟨rowKey, [83, 117, 77, 58, 0, 49], [255, 56], 1⟩

def threeByteColumn : Column := ⟨rowKey, [0, 0, 58], [1, 2, 3], 1⟩

end Gappy

theorem RowBuilder.inspection_foretells_push_sums :
    create Gappy.sumQuery .default = .ok Gappy.sumStart ∧
      Settings.default.layout.Admits Gappy.namedColumn.rowKey ∧
      Settings.default.layout.Admits Gappy.threeByteColumn.rowKey ∧
      (∃ row point, (Gappy.sumStart.push Gappy.namedColumn).2.freeze = .ok row ∧
        Cursor.Yields row (.start row) [point] ∧ point.offset = 3 ∧ point.value = .integer (-200)) ∧
      Report.describe Gappy.sumStart.selection Gappy.namedColumn =
        "stream=value encoding=Legacy \x7b prefix_len: 4 \x7d offset=3 width=2 integer value=-200" ∧
      Report.describe Gappy.sumStart.selection Gappy.threeByteColumn =
        "stream=value encoding=Current offset=3 width=3 float value=codec error: invalid float value width 3" ∧
      (Gappy.sumStart.push Gappy.threeByteColumn).1 = .error (.cell (.badWidth .float 3)) := by
  have created : create Gappy.sumQuery .default = .ok Gappy.sumStart := rfl
  have admits : Settings.default.layout.Admits Gappy.namedColumn.rowKey := by decide
  have admitsToo : Settings.default.layout.Admits Gappy.threeByteColumn.rowKey := by decide
  obtain ⟨lineToo, _, point⟩ := inspection_foretells_push created admits
  obtain ⟨line, refused, _⟩ := inspection_foretells_push created admitsToo
  obtain ⟨row, point, frozen, yields, offset, value, _⟩ := point rfl ⟨.value, .legacy 4⟩ ⟨49⟩ (.integer (-200)) rfl
  exact ⟨created, admits, admitsToo, ⟨row, point, frozen, yields, offset, value⟩, lineToo, line, refused⟩

end Rollup
