import Rollup.Command.Run
import Rollup.Proofs.FirstColumn
import Rollup.Proofs.InnerJoin
import Rollup.Proofs.Listings
import Rollup.Proofs.OneRow
import Rollup.Proofs.Rearrangement
import Rollup.Proofs.Refusals
import Rollup.Proofs.Written

/-! The command that decodes a row. It prints a whole listing or nothing at all: a listing if every step up to the last
column succeeds, and then it is of the points that a new cursor reads. All that can fail is done before the first line
is printed. -/

namespace Rollup

namespace RowBuilder

variable {builder after : RowBuilder} {columns : List Column}

/-- All columns are pushed if each of them is accepted. -/
theorem pushAll_ok_iff :
    builder.pushAll columns = .ok after ↔
      (∀ index, builder.verdict columns index = .ok ()) ∧ builder.pushEach columns = after := by
  induction columns generalizing builder with
  | nil => exact ⟨fun pushed => ⟨fun index => index.elim0, Except.ok.inj pushed⟩, fun each => congrArg Except.ok each.2⟩
  | cons column columns ih =>
    have split : (∀ index, builder.verdict (column :: columns) index = .ok ()) ↔
        (builder.push column).1 = .ok () ∧ ∀ index, (builder.push column).2.verdict columns index = .ok () :=
      Fin.forall_fin_succ
    rw [split, pushEach_cons, pushAll]
    generalize builder.push column = outcome
    obtain ⟨result, next⟩ := outcome
    cases result with
    | ok _ => simp only [ih, true_and]
    | error cause => simp only [reduceCtorEq, false_and]

private theorem key?_of_push {column : Column} (accepted : (builder.push column).1 = .ok ()) :
    ∃ key, (builder.push column).2.key? = some key := by
  have fed := builder.feed_fed (.push column)
  change Fed builder column (builder.push column).1 (builder.push column).2 at fed
  rw [accepted] at fed
  generalize (builder.push column).2 = after at fed ⊢
  cases fed with
  | stored key _ _ appended => exact ⟨key, by rw [frame_of_append appended]⟩

/-- After an accepted column there is a row to freeze. -/
theorem exists_freeze (filled : columns ≠ []) (each : ∀ index, builder.verdict columns index = .ok ()) :
    ∃ row, (builder.pushEach columns).freeze = .ok row := by
  cases columns with
  | nil => exact absurd rfl filled
  | cons column columns =>
    obtain ⟨key, held⟩ := key?_of_push (each ⟨0, Nat.succ_pos _⟩)
    obtain ⟨row, frozen, _⟩ := freeze_of_held (key?_feedAll held (columns.map .push))
    exact ⟨row, frozen⟩

/-- Where the widths in front of the tags add up, pushing columns does not stop the program. -/
theorem pushAll_ne_overflow (word : builder.layout.minLength ≤ Word.largest) :
    builder.pushAll columns ≠ .error .overflow := by
  induction columns generalizing builder with
  | nil => simp [pushAll]
  | cons column columns ih =>
    have said := feed_ne_overflow word (.push column)
    have kept : (builder.push column).2.layout = builder.layout := layout_feed builder (.push column)
    change (builder.push column).1 ≠ .error .overflow at said
    rw [pushAll]
    generalize builder.push column = outcome at said kept ⊢
    obtain ⟨result, after⟩ := outcome
    cases result with
    | ok _ => exact ih (by rwa [kept])
    | error cause => exact fun stopped => said (congrArg Except.error (Except.error.inj stopped))

/-- Otherwise the first column does. -/
theorem pushAll_of_overflow (fresh : builder.key? = none) (wide : Word.largest < builder.layout.minLength)
    (filled : columns ≠ []) : builder.pushAll columns = .error .overflow := by
  cases columns with
  | nil => exact absurd rfl filled
  | cons column columns =>
    have stopped : RowKey.ofBytes builder.layout column.rowKey = .error .overflow := by
      rw [RowKey.ofBytes_eq, dif_neg fun admits => absurd admits.word (Nat.not_le.mpr wide),
        if_neg (Nat.not_le.mpr wide)]
    simp only [pushAll, push_short fresh stopped]

end RowBuilder

namespace Printing

/-- A step that prints nothing is followed by the rest, or ends the run with what was printed before it. -/
theorem finish_bind {α : Type} (step : Except Failure α) (rest : α → Printing Unit) :
    finish (liftM step >>= rest) =
      match step with
      | .ok result => finish (rest result)
      | .error failure => (.error failure, "") := by
  cases step <;> rfl

private theorem run_lines (texts : List String) (printed : String) :
    (ExceptT.run (lines texts)).run printed = (.ok (), printed ++ Report.lines texts) := by
  induction texts generalizing printed with
  | nil => exact congrArg (Prod.mk _) (String.append_empty).symm
  | cons text texts ih =>
    have behind : Report.lines (text :: texts) = text ++ "\n" ++ Report.lines texts := by
      simp only [Report.lines, List.map_cons, String.join_cons]
    change (ExceptT.run (lines texts)).run (printed ++ (text ++ "\n")) = _
    rw [ih, behind, String.append_assoc]

theorem finish_lines (texts : List String) : finish (lines texts) = (.ok (), Report.lines texts) := by
  rw [finish, run_lines, String.empty_append]

theorem finish_line (text : String) : finish (line text) = (.ok (), text ++ "\n") := by
  change (Except.ok (), "" ++ (text ++ "\n")) = _
  rw [String.empty_append]

end Printing

namespace Command

/-- The settings are those of the file, if one is named, and the default ones otherwise. -/
def Configured (files : Files) (options : RowOptions) (settings : Settings) : Prop :=
  match options.config? with
  | none => settings = .default
  | some path => Settings.load path (files path) = .ok settings

/-- The options ask for this empty row, in which repeated cells are fixed if the settings or the options say so. -/
def Starts (files : Files) (options : RowOptions) (start : RowBuilder) : Prop :=
  ∃ settings aggregator granularity, Configured files options settings ∧
    Aggregator.ofText? options.aggregator = some aggregator ∧
    Granularity.parse options.interval options.rowSpan = .ok granularity ∧
    RowBuilder.create ⟨aggregator, granularity⟩
      { settings with fixDuplicates := settings.fixDuplicates || options.fixDuplicates } = .ok start

/-- There are columns, and a row for them can be started. -/
structure Prepares (files : Files) (options : RowOptions) (columns : List Column) (start : RowBuilder) : Prop where
  dumped : ∃ text, files options.columns = some text ∧ Column.ofDump? text = some columns
  filled : columns ≠ []
  started : Starts files options start

/-- There are columns, a row for them can be started, and it accepts each of them in its turn. -/
structure Accepts (files : Files) (options : RowOptions) (columns : List Column) (start : RowBuilder) : Prop
    extends Prepares files options columns start where
  each : ∀ index, start.verdict columns index = .ok ()

/-- All of decoding that may fail: the row made from the dump. -/
def decoded (files : Files) (options : RowOptions) : Except Failure Row := do
  let columns ← readColumns files options.columns
  let builder ← builder files options
  row builder columns

/-- All that decoding prints. -/
def listing (options : RowOptions) (reading : Reading) : Format → String
  | .csv => Report.lines (Report.csvLines reading)
  | .json => Report.json options.aggregator reading ++ "\n"

section Steps
variable {files : Files} {options : RowOptions} {columns : List Column} {start : RowBuilder}

private theorem readColumns_ok_iff {path : String} :
    readColumns files path = .ok columns ↔
      (∃ text, files path = some text ∧ Column.ofDump? text = some columns) ∧ columns ≠ [] := by
  have dumped : (∃ text, files path = some text ∧ Column.ofDump? text = some columns) ↔
      (files path).bind Column.ofDump? = some columns :=
    Option.bind_eq_some_iff.symm
  rw [dumped, readColumns]
  match (files path).bind Column.ofDump? with
  | none => simp only [reduceCtorEq, false_and]
  | some [] =>
    constructor
    · rintro ⟨⟩
    · rintro ⟨⟨⟩, filled⟩
      exact absurd rfl filled
  | some (first :: others) =>
    constructor
    · rintro ⟨⟩
      exact ⟨rfl, List.cons_ne_nil _ _⟩
    · rintro ⟨⟨⟩, _⟩
      rfl

private theorem settings_ok_iff {settings : Settings} :
    Command.settings files options = .ok settings ↔ ∃ found, Configured files options found ∧
      { found with fixDuplicates := found.fixDuplicates || options.fixDuplicates } = settings := by
  unfold Command.settings Configured
  cases options.config? with
  | none => simp only [Except.ok.injEq, exists_eq_left]
  | some path =>
    dsimp only
    cases Settings.load path (files path) with
    | error cause => simp only [reduceCtorEq, false_and, exists_false]
    | ok found => simp only [Except.ok.injEq, exists_eq_left']

private theorem builder_ok_iff : builder files options = .ok start ↔ Starts files options start := by
  unfold builder Starts
  constructor
  · intro built
    split at built
    · cases built
    · next settings taken =>
      obtain ⟨found, configured, rfl⟩ := settings_ok_iff.mp taken
      split at built
      · cases built
      · next aggregator named =>
        split at built
        · cases built
        · next granularity parsed =>
          split at built
          · cases built
          · next created =>
            cases built
            exact ⟨found, aggregator, granularity, configured, named, parsed, created⟩
  · rintro ⟨found, aggregator, granularity, configured, named, parsed, created⟩
    simp only [settings_ok_iff.mpr ⟨found, configured, rfl⟩, named, parsed, created]

private theorem row_ok_iff {row : Row} :
    Command.row start columns = .ok row ↔
      (∀ index, start.verdict columns index = .ok ()) ∧ (start.pushEach columns).freeze = .ok row := by
  unfold Command.row
  constructor
  · intro made
    split at made
    · cases made
    · next after pushed =>
      obtain ⟨each, rfl⟩ := RowBuilder.pushAll_ok_iff.mp pushed
      split at made
      · cases made
      · next frozen =>
        cases made
        exact ⟨each, frozen⟩
  · rintro ⟨each, frozen⟩
    simp only [RowBuilder.pushAll_ok_iff.mpr ⟨each, rfl⟩, frozen]

/-- The listing is printed once there is a row, and nothing before. -/
theorem finish_runDecode (files : Files) (options : RowOptions) (seek? : Option UInt64) (format : Format) :
    (runDecode files options seek? format).finish =
      match decoded files options with
      | .ok row => (.ok (), listing options (row.read seek?) format)
      | .error failure => (.error failure, "") := by
  rw [runDecode, Printing.finish_bind, decoded]
  cases readColumns files options.columns with
  | error failure => rfl
  | ok columns =>
    dsimp only
    rw [Printing.finish_bind]
    cases builder files options with
    | error failure => rfl
    | ok builder =>
      dsimp only
      rw [Printing.finish_bind]
      change _ = match row builder columns with
        | .ok row => (Except.ok (), listing options (row.read seek?) format)
        | .error failure => (Except.error failure, "")
      cases row builder columns with
      | error failure => rfl
      | ok row =>
        cases format with
        | csv => exact Printing.finish_lines _
        | json => exact Printing.finish_line _

private theorem readColumns_ne_overflow {path : String} : readColumns files path ≠ .error (.library .overflow) := by
  intro stopped
  unfold readColumns at stopped
  split at stopped <;> cases stopped

private theorem builder_ne_overflow : builder files options ≠ .error (.library .overflow) := by
  intro stopped
  unfold builder at stopped
  repeat' split at stopped
  all_goals cases stopped

private theorem decoded_of_prepares (prepares : Prepares files options columns start) :
    decoded files options = row start columns := by
  simp only [decoded, readColumns_ok_iff.mpr ⟨prepares.dumped, prepares.filled⟩, builder_ok_iff.mpr prepares.started]
  rfl

/-- Either the columns and a row for them are at hand, or decoding fails and does not stop the program. -/
private theorem prepares_or_fails (files : Files) (options : RowOptions) :
    (∃ columns start, Prepares files options columns start) ∨
      ∃ failure, decoded files options = .error failure ∧ failure ≠ .library .overflow := by
  cases read : readColumns files options.columns with
  | error failure => exact .inr ⟨failure, by rw [decoded, read]; rfl, fun stop => readColumns_ne_overflow (stop ▸ read)⟩
  | ok columns =>
    obtain ⟨dumped, filled⟩ := readColumns_ok_iff.mp read
    cases built : builder files options with
    | error failure =>
      exact .inr ⟨failure, by rw [decoded, read, built]; rfl, fun stop => builder_ne_overflow (stop ▸ built)⟩
    | ok start => exact .inl ⟨columns, start, dumped, filled, builder_ok_iff.mp built⟩

private theorem decoded_ok_iff {made : Row} :
    decoded files options = .ok made ↔ ∃ columns start, Accepts files options columns start ∧
      (start.pushEach columns).freeze = .ok made := by
  constructor
  · intro found
    rcases prepares_or_fails files options with ⟨columns, start, prepares⟩ | ⟨failure, failed, _⟩
    · rw [decoded_of_prepares prepares] at found
      obtain ⟨each, frozen⟩ := row_ok_iff.mp found
      exact ⟨columns, start, ⟨prepares, each⟩, frozen⟩
    · rw [failed] at found
      cases found
  · rintro ⟨columns, start, accepts, frozen⟩
    rw [decoded_of_prepares accepts.toPrepares]
    exact row_ok_iff.mpr ⟨accepts.each, frozen⟩

private theorem row_overflow_iff (prepares : Prepares files options columns start) :
    row start columns = .error (.library .overflow) ↔ Word.largest < start.layout.minLength := by
  constructor
  · intro stopped
    by_contra word
    -- Nothing that pushing or freezing says is an overflow.
    have pushed : start.pushAll columns ≠ .error .overflow := RowBuilder.pushAll_ne_overflow (Nat.not_lt.mp word)
    unfold row at stopped
    split at stopped
    · next refused =>
      cases stopped
      exact pushed refused
    · next after _ =>
      unfold RowBuilder.freeze at stopped
      cases held : after.key? <;> simp [held] at stopped
  · intro wide
    obtain ⟨_, _, _, _, _, _, created⟩ := prepares.started
    have fresh : start.key? = none := by rw [(RowBuilder.create_ok created).2]
    rw [row, RowBuilder.pushAll_of_overflow fresh wide prepares.filled]

/-- Decoding stops the program just if the widths in front of the tags do not add up. -/
private theorem decoded_overflow_iff :
    decoded files options = .error (.library .overflow) ↔
      ∃ columns start, Prepares files options columns start ∧ Word.largest < start.layout.minLength := by
  constructor
  · intro stopped
    rcases prepares_or_fails files options with ⟨columns, start, prepares⟩ | ⟨failure, failed, other⟩
    · rw [decoded_of_prepares prepares] at stopped
      exact ⟨columns, start, prepares, (row_overflow_iff prepares).mp stopped⟩
    · rw [failed] at stopped
      cases stopped
      exact absurd rfl other
  · rintro ⟨columns, start, prepares, wide⟩
    rw [decoded_of_prepares prepares]
    exact (row_overflow_iff prepares).mpr wide

end Steps

/-- What decoding ends with: a listing of the row, or a report of why there is none. -/
private theorem outcome_decode (files : Files) (options : RowOptions) (seek? : Option UInt64) (format : Format) :
    (Invocation.run (.decode options seek? format)).outcome files =
      match decoded files options with
      | .ok row => ⟨0, listing options (row.read seek?) format, ""⟩
      | .error failure => ⟨failure.code, "", failure.report⟩ := by
  change Outcome.ofPrinting (runDecode files options seek? format) = _
  rw [Outcome.ofPrinting, finish_runDecode]
  cases decoded files options <;> rfl

private theorem code_report {failure : Failure} (told : failure ≠ .library .overflow) :
    failure.code = 1 ∧ failure.report = "Error: " ++ failure.message ++ "\n" := by
  unfold Failure.code Failure.report
  split
  · exact absurd rfl told
  · exact ⟨rfl, rfl⟩

/-- The program stops at an overflow just if there are columns and the widths in front of the tags do not add up. -/
theorem decode_overflow_iff (files : Files) (options : RowOptions) (seek? : Option UInt64) (format : Format) :
    (Invocation.run (.decode options seek? format)).outcome files = ⟨101, "", ""⟩ ↔
      ∃ columns start, Prepares files options columns start ∧ Word.largest < start.layout.minLength := by
  rw [← decoded_overflow_iff, outcome_decode]
  cases decoded files options with
  | ok row => simp
  | error failure =>
    constructor
    · intro stopped
      by_contra told
      have code := (code_report fun same => told (congrArg Except.error same)).1
      have stopCode : failure.code = 101 := congrArg Outcome.code stopped
      rw [code] at stopCode
      cases stopCode
    · rintro ⟨⟩
      rfl

/-- The row lists what a new cursor reads from it. -/
private theorem lists_listing (options : RowOptions) (row : Row) (seek? : Option UInt64) (format : Format) :
    ∃ points, Cursor.Yields row (seek?.elim (.start row) ((Cursor.start row).seek row)) points ∧
      Report.Lists points (listing options (row.read seek?) format) format := by
  refine ⟨(row.read seek?).points, ?_, ?_⟩
  · cases seek? <;> exact Cursor.yields_drain row _
  · cases format with
    | csv => exact Report.lists_csvLines _
    | json => exact Report.lists_json _ _

/-- Decoding succeeds if all columns are accepted, and only then. If it fails, it prints nothing and ends with an error
and one code, as long as the widths in front of the tags add up. If it succeeds, the output lists the points that a new
cursor reads, from the timestamp on if one is given. -/
theorem decode_all_or_nothing (files : Files) (options : RowOptions) (seek? : Option UInt64) (format : Format)
    (addsUp : ∀ start, Starts files options start → start.layout.minLength ≤ Word.largest) :
    let outcome := (Invocation.run (.decode options seek? format)).outcome files
    (outcome.code = 0 ↔ ∃ columns start, Accepts files options columns start) ∧
      (outcome.code ≠ 0 → outcome.code = 1 ∧ outcome.output = "" ∧
        ∃ message, outcome.errors = "Error: " ++ message ++ "\n") ∧
      ∀ columns start, Accepts files options columns start → ∃ row points,
        (start.pushEach columns).freeze = .ok row ∧
        Cursor.Yields row (seek?.elim (.start row) ((Cursor.start row).seek row)) points ∧
        Report.Lists points outcome.output format := by
  intro outcome
  have ended : outcome = _ := outcome_decode files options seek? format
  have told {failure : Failure} (failed : decoded files options = .error failure) :
      failure.code = 1 ∧ failure.report = "Error: " ++ failure.message ++ "\n" := by
    refine code_report ?_
    rintro rfl
    obtain ⟨_, start, prepares, wide⟩ := decoded_overflow_iff.mp failed
    exact absurd (addsUp start prepares.started) (Nat.not_le.mpr wide)
  have succeeds {columns : List Column} {start : RowBuilder} (accepts : Accepts files options columns start) :
      ∃ row, (start.pushEach columns).freeze = .ok row ∧ decoded files options = .ok row := by
    obtain ⟨row, frozen⟩ := RowBuilder.exists_freeze accepts.filled accepts.each
    exact ⟨row, frozen, decoded_ok_iff.mpr ⟨columns, start, accepts, frozen⟩⟩
  refine ⟨⟨?_, ?_⟩, ?_, ?_⟩
  · intro succeeded
    cases made : decoded files options with
    | ok row =>
      obtain ⟨columns, start, accepts, _⟩ := decoded_ok_iff.mp made
      exact ⟨columns, start, accepts⟩
    | error failure =>
      rw [ended, made] at succeeded
      exact absurd ((told made).1.symm.trans succeeded) (by decide)
  · rintro ⟨columns, start, accepts⟩
    obtain ⟨row, _, made⟩ := succeeds accepts
    rw [ended, made]
  · intro failed
    cases made : decoded files options with
    | ok row =>
      rw [ended, made] at failed
      exact absurd rfl failed
    | error failure =>
      rw [ended, made]
      exact ⟨(told made).1, rfl, failure.message, (told made).2⟩
  · intro columns start accepts
    obtain ⟨row, frozen, made⟩ := succeeds accepts
    obtain ⟨points, yields, lists⟩ := lists_listing options row seek? format
    rw [ended, made]
    exact ⟨row, points, frozen, yields, lists⟩

/-! A value that is written twice. It is decoded if repetitions are fixed, and otherwise nothing is. -/

def repeatedFiles : Files
  | "row.json" => some ("[[[0,0,1,0,0,0,0],[0,0,48],[2],2],[[0,0,1,0,0,0,0],[1,0,48],[5],1]," ++
      "[[0,0,1,0,0,0,0],[0,0,48],[9],1]]")
  | _ => none

def repeatedOptions (fixDuplicates : Bool) : RowOptions :=
  ⟨"row.json", "avg", "1m", "1h", none, fixDuplicates⟩

def repeatedColumns : List Column :=
  [⟨Gappy.rowKey, [0, 0, 48], [2], 2⟩, ⟨Gappy.rowKey, [1, 0, 48], [5], 1⟩, ⟨Gappy.rowKey, [0, 0, 48], [9], 1⟩]

private theorem repeated_addsUp (fixDuplicates : Bool) (start : RowBuilder)
    (starts : Starts repeatedFiles (repeatedOptions fixDuplicates) start) : start.layout.minLength ≤ Word.largest := by
  obtain ⟨settings, _, _, configured, _, _, created⟩ := starts
  rw [(RowBuilder.create_ok created).2, show settings = .default from configured]
  exact show Settings.default.layout.minLength ≤ Word.largest by decide

theorem decode_all_or_nothing_repeated :
    let outcome fixDuplicates :=
      (Invocation.run (.decode (repeatedOptions fixDuplicates) (some 180) .csv)).outcome repeatedFiles
    (∀ fixDuplicates start, Starts repeatedFiles (repeatedOptions fixDuplicates) start →
        start.layout.minLength ≤ Word.largest) ∧
      outcome true = ⟨0, "# metric=000001, base_time=0, points=1, skipped=0\n" ++
        "timestamp,offset,value,count\n180000,3,9,5\n", ""⟩ ∧
      (∃ row, ({ Gappy.start with fixDuplicates := true }.pushEach repeatedColumns).freeze = .ok row ∧
        Cursor.Yields row ((Cursor.start row).seek row 180) [⟨180000, 3, .integer 9, some (.integer 5)⟩] ∧
        Report.Lists [⟨180000, 3, .integer 9, some (.integer 5)⟩] (outcome true).output .csv) ∧
      (outcome false).code = 1 ∧ (outcome false).output = "" ∧
      (outcome false).errors = "Error: append error: value offset 3 is <= the last offset 3\n" := by
  intro outcome
  have accepts : Accepts repeatedFiles (repeatedOptions true) repeatedColumns
      { Gappy.start with fixDuplicates := true } := by
    refine ⟨⟨⟨_, rfl, rfl⟩, List.cons_ne_nil _ _, ⟨.default, .avg, Gappy.query.granularity, rfl, rfl, rfl, rfl⟩⟩, ?_⟩
    decide
  obtain ⟨_, _, lists⟩ :=
    decode_all_or_nothing repeatedFiles (repeatedOptions true) (some 180) .csv (repeated_addsUp true)
  obtain ⟨_, fails, _⟩ :=
    decode_all_or_nothing repeatedFiles (repeatedOptions false) (some 180) .csv (repeated_addsUp false)
  obtain ⟨row, points, frozen, yields, listed⟩ := lists _ _ accepts
  have refused : outcome false = ⟨1, "", "Error: append error: value offset 3 is <= the last offset 3\n"⟩ := by
    decide +kernel
  obtain ⟨code, output, _⟩ := fails fun succeeded => by cases (congrArg Outcome.code refused).symm.trans succeeded
  have read : points = [⟨180000, 3, .integer 9, some (.integer 5)⟩] := by
    rw [yields.eq_drain]
    cases frozen
    decide +kernel
  subst read
  exact ⟨repeated_addsUp, by decide +kernel, ⟨row, frozen, yields, listed⟩, code, output,
    congrArg Outcome.errors refused⟩

/-! A salt as wide as a word can tell. No key is as long, but what stops the program is the sum with the other widths:
the column is not refused. -/

def wideFiles : Files
  | "row.json" => some "[[[0,0,1,0,0,0,0],[0,0,16],[7],1]]"
  | "config.json" => some "\x7b\"key_layout\":\x7b\"salt_width\":18446744073709551615\x7d\x7d"
  | _ => none

def wideOptions : RowOptions := ⟨"row.json", "sum", "1h", "1d", some "config.json", false⟩

def wideSettings : Settings := { Settings.default with layout := { salt := 18446744073709551615 } }

def wideStart : RowBuilder := { RowBuilder.dailyStart with layout := wideSettings.layout }

/-- The columns are read and a row for them is started. A key of seven bytes is too short for the layout, and the
program ends without an error that tells so. -/
theorem decode_stops_unreported :
    Prepares wideFiles wideOptions [⟨Gappy.rowKey, [0, 0, 16], [7], 1⟩] wideStart ∧
      Gappy.rowKey.length < wideStart.layout.minLength ∧
      (Invocation.run (.decode wideOptions none .csv)).outcome wideFiles = ⟨101, "", ""⟩ := by
  have prepares : Prepares wideFiles wideOptions [⟨Gappy.rowKey, [0, 0, 16], [7], 1⟩] wideStart :=
    ⟨⟨_, rfl, rfl⟩, List.cons_ne_nil _ _, wideSettings, .sum, RowBuilder.dailyQuery.granularity, rfl, rfl, rfl, rfl⟩
  exact ⟨prepares, by decide, (decode_overflow_iff _ _ _ _).mpr ⟨_, _, prepares, by decide⟩⟩

end Command

end Rollup
