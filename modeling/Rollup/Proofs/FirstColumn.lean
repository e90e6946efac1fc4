import Rollup.Proofs.OneRow
import Rollup.Proofs.Salting

/-! A builder takes its key from the first column whose key is long enough, and keeps it also if it refuses the cell of
that column. The refusal does no harm to further columns of the same row, and shuts out those of every other row. -/

namespace Rollup

/-- A feed that a builder without a key takes a key from, whatever it makes of the cell. -/
def Feed.Offers (layout : KeyLayout) : Feed → Prop
  | .add _ => False
  | .first column | .push column => layout.Admits column.rowKey

instance (layout : KeyLayout) : DecidablePred (Feed.Offers layout)
  | .add _ => inferInstanceAs (Decidable False)
  | .first column | .push column => inferInstanceAs (Decidable (layout.Admits column.rowKey))

namespace RowBuilder

variable {builder : RowBuilder} {feed : Feed} {column : Column} {key : RowKey}

/-- The row of a column is never why its cell is refused. -/
theorem append_ne_otherRow {row other : Bytes} :
    (builder.append column).1 ≠ .error (.append (.otherRow row other)) := by
  intro refused
  rcases append_error refused with foreign | ⟨_, fault⟩ | ⟨_, _, _, late⟩
  · cases foreign
  · cases fault
  · cases late

theorem push_fresh_ne_otherRow {row other : Bytes} (fresh : builder.key? = none) :
    (builder.push column).1 ≠ .error (.append (.otherRow row other)) := by
  intro refused
  cases parsed : RowKey.ofBytes builder.layout column.rowKey with
  | error cause =>
    rw [push_short fresh parsed] at refused
    rw [RowKey.ofBytes_eq] at parsed
    split_ifs at parsed <;> cases parsed <;> cases refused
  | ok key =>
    rw [push_of_belongs (.inl ⟨fresh, parsed⟩)] at refused
    exact append_ne_otherRow refused

/-- To a builder without a key, a feed that offers none does nothing. -/
theorem feed_of_not_offers (fresh : builder.key? = none) (keyless : ¬ feed.Offers builder.layout) :
    ∃ cause, builder.feed feed = (.error cause, builder) := by
  cases feed with
  | add column => exact ⟨.append .rowNotSet, by simp only [RowBuilder.feed, add, fresh]⟩
  | first column =>
    obtain ⟨cause, short⟩ := RowKey.ofBytes_of_not_admits keyless
    exact ⟨cause, by simp only [RowBuilder.feed, setFirst, fresh, short]⟩
  | push column =>
    obtain ⟨cause, short⟩ := RowKey.ofBytes_of_not_admits keyless
    exact ⟨cause, push_short fresh short⟩

/-- From a feed that offers one the builder takes the key first, and looks at the cell then. -/
theorem feed_of_offers (fresh : builder.key? = none) (offers : feed.Offers builder.layout) :
    ∃ key, RowKey.ofBytes builder.layout feed.column.rowKey = .ok key ∧
      builder.feed feed = { builder with key? := some key }.append feed.column := by
  cases feed with
  | add column => cases offers
  | first column =>
    have parsed := RowKey.ofBytes_of_admits offers
    exact ⟨_, parsed, by simp only [RowBuilder.feed, setFirst, fresh, parsed, Feed.column]⟩
  | push column =>
    have parsed := RowKey.ofBytes_of_admits offers
    exact ⟨_, parsed, push_of_belongs (.inl ⟨fresh, parsed⟩)⟩

theorem key?_feed_iff (fresh : builder.key? = none) (feed : Feed) :
    (builder.feed feed).2.key?.isSome = true ↔ feed.Offers builder.layout := by
  by_cases offers : feed.Offers builder.layout
  · obtain ⟨key, _, fed⟩ := feed_of_offers fresh offers
    rw [fed, frame_append]
    simp only [Option.isSome_some, offers]
  · obtain ⟨cause, fed⟩ := feed_of_not_offers fresh offers
    simp only [fed, fresh, Option.isSome_none, offers, Bool.false_eq_true]

theorem key?_feedAll_iff (fresh : builder.key? = none) (feeds : List Feed) :
    (builder.feedAll feeds).key?.isSome = true ↔ ∃ feed ∈ feeds, feed.Offers builder.layout := by
  induction feeds generalizing builder with
  | nil => simp [feedAll, fresh]
  | cons feed feeds ih =>
    have step := key?_feed_iff fresh feed
    rw [feedAll_cons]
    cases held : (builder.feed feed).2.key? with
    | none =>
      rw [held] at step
      rw [ih held, layout_feed]
      simp [← step]
    | some key =>
      rw [held] at step
      rw [key?_feedAll held feeds]
      simp [← step]

theorem freeze_isOk_iff : (∃ row, builder.freeze = .ok row) ↔ builder.key?.isSome = true := by
  unfold freeze
  cases builder.key? <;> simp

/-- A refusal leaves a builder without a key as it was, or gives it the key and nothing else. -/
theorem refused_fresh {cause : Error} {after : RowBuilder} (fresh : builder.key? = none)
    (refused : builder.feed feed = (.error cause, after)) :
    ¬ feed.Offers builder.layout ∧ after = builder ∨
      ∃ key, RowKey.ofBytes builder.layout feed.column.rowKey = .ok key ∧
        after = { builder with key? := some key } := by
  by_cases offers : feed.Offers builder.layout
  · obtain ⟨key, parsed, fed⟩ := feed_of_offers fresh offers
    rw [fed] at refused
    exact .inr ⟨key, parsed, append_refused refused⟩
  · obtain ⟨_, fed⟩ := feed_of_not_offers fresh offers
    rw [fed] at refused
    cases refused
    exact .inl ⟨offers, rfl⟩

/-- With a key in hand or without one, a column of the row of the key meets the same streams. -/
theorem push_keyed (fresh : builder.key? = none) (layout : key.layout = builder.layout)
    (matched : key.matchesRow column.rowKey = true) :
    (builder.push column).1 = ({ builder with key? := some key }.push column).1 ∧
      Resalted ({ builder with key? := some key }.push column).2 (builder.push column).2 := by
  obtain ⟨own, parsed, same⟩ := RowKey.exists_sameRow matched
  rw [layout] at parsed
  have keyed : ({ builder with key? := some key } : RowBuilder).Belongs key column := .inr ⟨rfl, matched⟩
  have kept : (builder.append column).2.layout = builder.layout := by rw [frame_append]
  rw [push_of_belongs keyed, push_of_belongs (.inl ⟨fresh, parsed⟩), append_rekey builder (some key),
    append_rekey builder (some own)]
  exact ⟨rfl, rfl, .inr ⟨key, own, rfl, rfl, layout.trans kept.symm, same⟩⟩

theorem Resalted.verdicts {first second : RowBuilder} (alike : Resalted first second) (columns : List Column) :
    List.Forall₂ (Verdict.Resalted first.layout.salt.toNat) (first.verdicts columns) (second.verdicts columns) :=
  (alike.pushEach (List.forall₂_same.mpr fun _ _ => ⟨rfl, rfl, rfl, rfl, rfl⟩)).1

/-- With a key a builder says the same to columns as it does without, up to salts, just if the first of them is of the
row of the key. -/
theorem verdicts_keyed_iff (fresh : builder.key? = none) (layout : key.layout = builder.layout)
    (columns : List Column) :
    List.Forall₂ (Verdict.Resalted builder.layout.salt.toNat) ({ builder with key? := some key }.verdicts columns)
        (builder.verdicts columns) ↔
      ∀ next ∈ columns.head?, key.matchesRow next.rowKey = true := by
  cases columns with
  | nil => simp [verdicts]
  | cons next columns =>
    simp only [List.head?_cons, Option.mem_some_iff, forall_eq', verdicts, List.forall₂_cons]
    constructor
    · rintro ⟨said, _⟩
      by_contra foreign
      have shut : ({ builder with key? := some key }.push next).1 =
          .error (.append (.otherRow key.bytes next.rowKey)) := by simp only [push, add, if_neg foreign]
      rw [shut] at said
      generalize told : (builder.push next).1 = verdict at said
      cases said <;> exact push_fresh_ne_otherRow fresh told
    · intro matched
      obtain ⟨said, alike⟩ := push_keyed fresh layout matched
      have kept : ({ builder with key? := some key }.push next).2.layout = builder.layout :=
        layout_feed { builder with key? := some key } (.push next)
      have rest := alike.verdicts columns
      rw [kept] at rest
      rw [said]
      exact ⟨.same _, rest⟩

/-- A builder without a key is fed. It can be frozen at the end just if any feed offered a key. A refusal leaves it as
it was if none was offered. Else the key stays behind, and from there on columns are told the same as if the refused
column had not been, up to salts, just if the next is of its row. -/
theorem refused_first_keeps_key (fresh : builder.key? = none) :
    (∀ feeds, (∃ row, (builder.feedAll feeds).freeze = .ok row) ↔ ∃ feed ∈ feeds, feed.Offers builder.layout) ∧
      ∀ feed cause after, builder.feed feed = (.error cause, after) →
        ¬ feed.Offers builder.layout ∧ after = builder ∨
          ∃ key, RowKey.ofBytes builder.layout feed.column.rowKey = .ok key ∧
            after = { builder with key? := some key } ∧
            ∀ columns, List.Forall₂ (Verdict.Resalted builder.layout.salt.toNat) (after.verdicts columns)
                (builder.verdicts columns) ↔
              ∀ next ∈ columns.head?, key.matchesRow next.rowKey = true := by
  refine ⟨fun feeds => freeze_isOk_iff.trans (key?_feedAll_iff fresh feeds), ?_⟩
  intro feed cause after refused
  rcases refused_fresh fresh refused with unchanged | ⟨key, parsed, rfl⟩
  · exact .inl unchanged
  · exact .inr ⟨key, parsed, rfl, verdicts_keyed_iff fresh (RowKey.ofBytes_ok parsed).1⟩

/-! A column whose aggregation nobody wants, another of the same row, and one of another row. -/

def unwantedColumn : Column := ⟨Gappy.rowKey, [9, 0, 16], [7], 1⟩

def wantedColumn : Column := ⟨Gappy.rowKey, [0, 0, 16], [7], 1⟩

def distantColumn : Column := ⟨[0, 0, 2, 0, 0, 0, 0], [0, 0, 16], [7], 1⟩

theorem refused_first_keeps_key_unwanted :
    Gappy.start.key? = none ∧
      (∃ row, (Gappy.start.feedAll [.add wantedColumn, .push unwantedColumn]).freeze = .ok row) ∧
      ∃ after, Gappy.start.feed (.push unwantedColumn) =
          (.error (.append (.foreignQualifier [9, 0, 16] .sum true)), after) ∧
        List.Forall₂ (Verdict.Resalted 0) (after.verdicts [wantedColumn, distantColumn])
          (Gappy.start.verdicts [wantedColumn, distantColumn]) ∧
        ¬ List.Forall₂ (Verdict.Resalted 0) (after.verdicts [distantColumn])
          (Gappy.start.verdicts [distantColumn]) := by
  have fresh : Gappy.start.key? = none := rfl
  have keeps := refused_first_keeps_key fresh
  refine ⟨fresh, (keeps.1 _).mpr ⟨.push unwantedColumn, by simp, by decide⟩, _, rfl, ?_⟩
  obtain ⟨keyless, _⟩ | ⟨key, parsed, _, told⟩ := keeps.2 (.push unwantedColumn) _ _ rfl
  · exact absurd (by decide) keyless
  · cases parsed
    refine ⟨(told _).mpr (by decide), fun alike => ?_⟩
    exact absurd ((told _).mp alike) (by decide)

/-- Nothing of the refused column is stored. Yet the builder is bound to its row, can be frozen, and refuses a column of
another row that would have been its first. -/
theorem refused_first_binds :
    create dailyQuery .default = .ok dailyStart ∧ dailyStart.key? = none ∧
      ∃ after, dailyStart.setFirst unwantedColumn =
          (.error (.append (.foreignQualifier [9, 0, 16] .sum false)), after) ∧
        dailyStart.push unwantedColumn = dailyStart.setFirst unwantedColumn ∧
        dailyStart.accepted [.first unwantedColumn] = [] ∧ after.key?.isSome = true ∧
        (after.add wantedColumn).1 = .ok () ∧ (∃ row, after.freeze = .ok row) ∧
        (after.push distantColumn).1 = .error (.append (.otherRow Gappy.rowKey [0, 0, 2, 0, 0, 0, 0])) ∧
        (dailyStart.push distantColumn).1 = .ok () :=
  ⟨rfl, rfl, _, rfl, rfl, rfl, rfl, rfl, ⟨_, rfl⟩, rfl, rfl⟩

end RowBuilder

end Rollup
