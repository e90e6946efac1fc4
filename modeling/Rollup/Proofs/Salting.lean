import Rollup.Proofs.Rearrangement
import Rollup.Proofs.Refusals

/-! Two builders are pushed columns that differ in the salts of their keys alone. They say the same to every column,
unless that it is of another row, where the error names the keys. The rows frozen are alike and read alike. -/

namespace Rollup

/-- The columns differ at most in the first bytes of their keys, as many as a salt is wide. -/
structure Column.Resalted (width : Nat) (first second : Column) : Prop where
  qualifier : second.qualifier = first.qualifier
  value : second.value = first.value
  timestamp : second.timestamp = first.timestamp
  length : second.rowKey.length = first.rowKey.length
  unsalted : second.rowKey.drop width = first.rowKey.drop width

/-- What two runs say to a column. It is the same, unless the column is of another row: that error shows both keys, which
agree behind the salt. -/
inductive Verdict.Resalted (width : Nat) : Except Error Unit → Except Error Unit → Prop
  | same (verdict : Except Error Unit) : Resalted width verdict verdict
  | otherRow {row row' column column' : Bytes} (rows : row'.drop width = row.drop width)
      (columns : column'.drop width = column.drop width) :
      Resalted width (.error (.append (.otherRow row column))) (.error (.append (.otherRow row' column')))

/-- Whether bytes are a key depends on their number alone, and so does what is said if they are none. -/
private theorem RowKey.ofBytes_resalted {layout : KeyLayout} {bytes other : Bytes}
    (length : other.length = bytes.length)
    (unsalted : other.drop layout.salt.toNat = bytes.drop layout.salt.toNat) :
    (∃ cause, ofBytes layout bytes = .error cause ∧ ofBytes layout other = .error cause) ∨
      ∃ key own, ofBytes layout bytes = .ok key ∧ ofBytes layout other = .ok own ∧ key.layout = layout ∧
        key.SameRow own := by
  by_cases admits : layout.Admits bytes
  · have matched : matchesRow ⟨bytes, layout, admits⟩ other = true := matchesRow_iff.mpr ⟨length, unsalted⟩
    obtain ⟨own, parsed, same⟩ := exists_sameRow matched
    exact .inr ⟨_, own, ofBytes_of_admits admits, parsed, rfl, same⟩
  · have refused : ¬ layout.Admits other := fun admitsToo => admits ⟨admitsToo.word, length ▸ admitsToo.long⟩
    rw [ofBytes_eq, ofBytes_eq, dif_neg admits, dif_neg refused, length]
    split <;> exact .inl ⟨_, rfl, rfl⟩

namespace RowBuilder

/-- What is said to the columns when they are pushed one after the other. -/
def verdicts (builder : RowBuilder) : List Column → List (Except Error Unit)
  | [] => []
  | column :: columns => (builder.push column).1 :: (builder.push column).2.verdicts columns

/-- The builders have the same streams, and keys of one row or none. -/
structure Resalted (first second : RowBuilder) : Prop where
  frame : second = { first with key? := second.key? }
  keys : first.key? = none ∧ second.key? = none ∨
    ∃ key own, first.key? = some key ∧ second.key? = some own ∧ key.layout = first.layout ∧ key.SameRow own

variable {first second : RowBuilder} {column other : Column} {columns others : List Column}

/-- A cell is stored without a look at the key of its column. -/
private theorem append_resalted {width : Nat} (resalted : column.Resalted width other) (builder : RowBuilder) :
    builder.append other = builder.append column := by
  simp only [append, resalted.qualifier, resalted.value, resalted.timestamp]

namespace Resalted

/-- Columns of the row that either builder takes up meet the same streams. -/
private theorem belongs {width : Nat} {key own : RowKey} (alike : Resalted first second)
    (resalted : column.Resalted width other) (belongs : first.Belongs key column) (belongsToo : second.Belongs own other)
    (layout : key.layout = first.layout) (same : key.SameRow own) :
    (second.push other).1 = (first.push column).1 ∧ Resalted (first.push column).2 (second.push other).2 := by
  have kept : (first.append column).2.layout = first.layout := by rw [frame_append]
  have rekeyed : ({ second with key? := some own } : RowBuilder) = { first with key? := some own } := by
    rw [alike.frame]
  rw [push_of_belongs belongs, push_of_belongs belongsToo, rekeyed, append_resalted resalted,
    append_rekey first (some key), append_rekey first (some own)]
  exact ⟨rfl, rfl, .inr ⟨key, own, rfl, rfl, layout.trans kept.symm, same⟩⟩

/-- One push: both builders say the same up to salts, and stay alike up to salts. -/
theorem push (alike : Resalted first second) (resalted : column.Resalted first.layout.salt.toNat other) :
    Verdict.Resalted first.layout.salt.toNat (first.push column).1 (second.push other).1 ∧
      Resalted (first.push column).2 (second.push other).2 := by
  have sameLayout : second.layout = first.layout := by rw [alike.frame]
  rcases alike.keys with ⟨fresh, freshToo⟩ | ⟨key, own, held, heldToo, layout, same⟩
  · rcases RowKey.ofBytes_resalted resalted.length resalted.unsalted with
      ⟨cause, short, shortToo⟩ | ⟨key, own, parsed, parsedToo, layout, same⟩
    · rw [push_short fresh short, push_short freshToo (sameLayout ▸ shortToo)]
      exact ⟨.same _, alike⟩
    · obtain ⟨said, after⟩ :=
        alike.belongs resalted (.inl ⟨fresh, parsed⟩) (.inl ⟨freshToo, sameLayout ▸ parsedToo⟩) layout same
      rw [said]
      exact ⟨.same _, after⟩
  · have matched : own.matchesRow other.rowKey = key.matchesRow column.rowKey := by
      rw [same.matchesRow, RowKey.matchesRow, RowKey.matchesRow, layout, resalted.length, resalted.unsalted]
    by_cases belongs : key.matchesRow column.rowKey = true
    · obtain ⟨said, after⟩ :=
        alike.belongs resalted (.inr ⟨held, belongs⟩) (.inr ⟨heldToo, matched.trans belongs⟩) layout same
      rw [said]
      exact ⟨.same _, after⟩
    · have belongsToo : ¬ own.matchesRow other.rowKey = true := by rwa [matched]
      simp only [RowBuilder.push, held, heldToo, add, if_neg belongs, if_neg belongsToo]
      refine ⟨.otherRow ?_ resalted.unsalted, alike⟩
      rw [← layout]
      exact same.bytes.2

theorem pushEach (alike : Resalted first second)
    (resalted : List.Forall₂ (Column.Resalted first.layout.salt.toNat) columns others) :
    List.Forall₂ (Verdict.Resalted first.layout.salt.toNat) (first.verdicts columns) (second.verdicts others) ∧
      Resalted (first.pushEach columns) (second.pushEach others) := by
  induction columns generalizing first second others with
  | nil =>
    cases resalted
    exact ⟨.nil, alike⟩
  | cons column columns ih =>
    cases resalted with
    | cons head tail =>
      obtain ⟨said, after⟩ := alike.push head
      have kept : (first.push column).2.layout = first.layout := layout_feed first (.push column)
      have rest := ih after (by rwa [kept])
      rw [kept] at rest
      exact ⟨.cons said rest.1, rest.2⟩

/-- Neither builder can be frozen, or both to rows that are the same but for the salt. -/
theorem freeze (alike : Resalted first second) :
    (first.freeze = .error (.append .rowNotSet) ∧ second.freeze = .error (.append .rowNotSet)) ∨
      ∃ row key, first.freeze = .ok row ∧ second.freeze = .ok { row with key } ∧ row.key.layout = first.layout ∧
        row.key.SameRow key := by
  rcases alike.keys with ⟨fresh, freshToo⟩ | ⟨key, own, held, heldToo, layout, same⟩
  · left
    simp only [RowBuilder.freeze, fresh, freshToo, and_self]
  · right
    rw [alike.frame, heldToo]
    simp only [RowBuilder.freeze, held]
    exact ⟨_, own, rfl, rfl, layout, same⟩

end Resalted

variable {query : Query} {settings : Settings} {start : RowBuilder}

/-- What is said to one of the columns is what a push says after some others. -/
private theorem exists_push_of_mem_verdicts {builder : RowBuilder} {said : Except Error Unit}
    (member : said ∈ builder.verdicts columns) :
    ∃ earlier column, said = ((builder.feedAll earlier).feed (.push column)).1 := by
  induction columns generalizing builder with
  | nil => cases member
  | cons column columns ih =>
    rcases List.mem_cons.mp member with rfl | later
    · exact ⟨[], column, rfl⟩
    · obtain ⟨earlier, other, same⟩ := ih later
      exact ⟨.push column :: earlier, other, same⟩

private theorem verdicts_ne_overflow (created : create query settings = .ok start) (addsUp : settings.layout.AddsUp)
    (columns : List Column) : .error .overflow ∉ start.verdicts columns := by
  intro member
  obtain ⟨earlier, column, said⟩ := exists_push_of_mem_verdicts member
  exact feedAll_ne_overflow created addsUp earlier (.push column) said.symm

/-- Two lists of columns that differ in the salts of their keys alone are pushed to two new builders, whose widths add
up. Every column is told the same, up to the salts in the error that it is of another row. Neither builder can be
frozen, or the rows are alike, with all of their tags, and every run of operations reads the same from both. -/
theorem salt_tells_nothing (created : create query settings = .ok start) (addsUp : settings.layout.AddsUp)
    (resalted : List.Forall₂ (Column.Resalted settings.layout.salt.toNat) columns others) :
    .error .overflow ∉ start.verdicts columns ∧ .error .overflow ∉ start.verdicts others ∧
      List.Forall₂ (Verdict.Resalted settings.layout.salt.toNat) (start.verdicts columns) (start.verdicts others) ∧
      ((start.pushEach columns).freeze = .error (.append .rowNotSet) ∧
          (start.pushEach others).freeze = .error (.append .rowNotSet) ∨
        ∃ row other, (start.pushEach columns).freeze = .ok row ∧ (start.pushEach others).freeze = .ok other ∧
          row.Alike other ∧ row.key.tags? = some row.key.tags ∧ other.key.tags? = some row.key.tags ∧
          Cursor.ReadAlike row other ∧
          ∀ operations, (Cursor.start other).answers other operations = (Cursor.start row).answers row operations) := by
  refine ⟨verdicts_ne_overflow created addsUp columns, verdicts_ne_overflow created addsUp others, ?_⟩
  have layout : start.layout = settings.layout := by rw [(create_ok created).2]
  have fresh : start.key? = none := by rw [(create_ok created).2]
  have alike : Resalted start start := ⟨rfl, .inl ⟨fresh, fresh⟩⟩
  rw [← layout] at resalted addsUp ⊢
  obtain ⟨said, after⟩ := alike.pushEach resalted
  refine ⟨said, ?_⟩
  rcases after.freeze with neither | ⟨row, key, frozen, frozenToo, keyLayout, same⟩
  · exact .inl neither
  · have packs := (feedAll_holds created (columns.map .push)).freeze frozen
    have reads := Cursor.readAlike_of_sameRow same
    have rowLayout : row.key.layout = start.layout := keyLayout.trans (layout_feedAll start (columns.map .push))
    have tags := RowKey.tags?_of_addsUp (rowLayout ▸ addsUp)
    refine .inr ⟨row, _, frozen, frozenToo, Row.alike_of_sameRow packs same, tags, same.tags?.trans tags, reads, ?_⟩
    intro operations
    rw [reads.start, reads.answers]

/-- The first key ends within its salt, and the last is of another row. -/
def saltings (first second : UInt8) : List Column :=
  [⟨[first], [0, 0, 16], [4], 1⟩, ⟨first :: Gappy.rowKey, [0, 0, 48], [2], 1⟩,
    ⟨second :: Gappy.rowKey, [1, 0, 48], [6], 1⟩, ⟨[second, 0, 0, 2, 0, 0, 0, 0], [0, 0, 80], [9], 1⟩]

theorem salt_tells_nothing_salted :
    create Gappy.query saltedSettings = .ok saltedStart ∧ saltedSettings.layout.AddsUp ∧
      List.Forall₂ (Column.Resalted saltedSettings.layout.salt.toNat) (saltings 7 4) (saltings 3 9) ∧
      saltedStart.verdicts (saltings 7 4) =
        [.error (.append (.shortKey 1 8)), .ok (), .ok (),
          .error (.append (.otherRow (7 :: Gappy.rowKey) [4, 0, 0, 2, 0, 0, 0, 0]))] ∧
      List.Forall₂ (Verdict.Resalted saltedSettings.layout.salt.toNat) (saltedStart.verdicts (saltings 7 4))
        (saltedStart.verdicts (saltings 3 9)) ∧
      ∃ row other, (saltedStart.pushEach (saltings 7 4)).freeze = .ok row ∧
        (saltedStart.pushEach (saltings 3 9)).freeze = .ok other ∧ row.Alike other ∧ row.key.salt = [7] ∧
        other.key.salt = [3] := by
  have created : create Gappy.query saltedSettings = .ok saltedStart := rfl
  have resalted : List.Forall₂ (Column.Resalted saltedSettings.layout.salt.toNat) (saltings 7 4) (saltings 3 9) := by
    refine .cons ?_ (.cons ?_ (.cons ?_ (.cons ?_ .nil))) <;> exact ⟨rfl, rfl, rfl, rfl, rfl⟩
  have addsUp : saltedSettings.layout.AddsUp := ⟨by decide, by decide⟩
  obtain ⟨_, _, said, neither | ⟨row, other, frozen, frozenToo, alike, _⟩⟩ :=
    salt_tells_nothing created addsUp resalted
  · cases neither.1
  · refine ⟨created, addsUp, resalted, rfl, said, row, other, frozen, frozenToo, alike, ?_, ?_⟩
    · cases frozen
      rfl
    · cases frozenToo
      rfl

/-! A layout with a salt of eight bytes and a metric id of so many that both make one more than the last word. -/

def wrappingSettings : Settings :=
  { Settings.default with layout := { salt := 8, metric := 18446744073709551608 } }

def wrappingStart : RowBuilder := { dailyStart with layout := wrappingSettings.layout }

/-- The columns differ in their salts alone. Both are too short to be keys, and neither is told so: each stops the
program. The low bits of the sum would place the base time in the salt. -/
theorem salt_stops_program :
    create dailyQuery wrappingSettings = .ok wrappingStart ∧
      Column.Resalted 8 ⟨[4, 4, 4, 4, 4, 4, 4, 4], [0, 0, 16], [7], 1⟩
        ⟨[5, 5, 5, 5, 5, 5, 5, 5], [0, 0, 16], [7], 1⟩ ∧
      wrappingStart.verdicts [⟨[4, 4, 4, 4, 4, 4, 4, 4], [0, 0, 16], [7], 1⟩] = [.error .overflow] ∧
      wrappingStart.verdicts [⟨[5, 5, 5, 5, 5, 5, 5, 5], [0, 0, 16], [7], 1⟩] = [.error .overflow] ∧
      wrappingSettings.layout.salt + wrappingSettings.layout.metric = 0 :=
  ⟨rfl, ⟨rfl, rfl, rfl, rfl, rfl⟩, rfl, rfl, rfl⟩

end RowBuilder

end Rollup
