import Rollup.Proofs.Refusals
import Rollup.Proofs.Written

/-! A builder takes its key once and holds every later column to it. So all accepted columns have keys of one row,
which agree in every part but the salt. -/

namespace Rollup

namespace RowKey

/-- What stands behind the last whole pair of tags. -/
def trailing (key : RowKey) : Bytes :=
  (key.bytes.drop key.layout.minLength).drop
    (key.tags.length * (key.layout.tagKey.toNat + key.layout.tagValue.toNat))

/-- The keys agree in all of their parts, if not in their salts. -/
structure SameParts (first second : RowKey) : Prop where
  metric : second.metric = first.metric
  baseTime : second.baseTime = first.baseTime
  tags : second.tags? = first.tags?
  trailing : second.trailing = first.trailing
  unsalted : second.bytes.drop second.layout.salt.toNat = first.bytes.drop first.layout.salt.toNat

theorem SameRow.sameParts {first second : RowKey} (same : SameRow first second) : SameParts first second := by
  refine ⟨same.metric, same.baseTime, same.tags?, ?_, ?_⟩
  · rw [RowKey.trailing, RowKey.trailing, same.tags, same.layout, KeyLayout.minLength, KeyLayout.baseTimeStart,
      Nat.add_assoc, same.drop]
  · rw [same.layout, same.bytes.2]

end RowKey

namespace RowBuilder

variable {builder start : RowBuilder} {columns : List Column} {key : RowKey}

/-- A key stays, whatever is fed and whatever comes of it. -/
theorem key?_feed (held : builder.key? = some key) (feed : Feed) : (builder.feed feed).2.key? = some key := by
  have fed := builder.feed_fed feed
  generalize builder.feed feed = outcome at fed ⊢
  obtain ⟨result, after⟩ := outcome
  cases fed with
  | refused => exact held
  | keyed cause other fresh =>
    rw [fresh] at held
    cases held
  | stored other _ belongs appended =>
    rw [frame_of_append appended]
    rcases belongs with ⟨fresh, _⟩ | ⟨heldToo, _⟩
    · rw [fresh] at held
      cases held
    · exact heldToo.symm.trans held

theorem key?_feedAll (held : builder.key? = some key) (feeds : List Feed) :
    (builder.feedAll feeds).key? = some key := by
  induction feeds generalizing builder with
  | nil => exact held
  | cons feed feeds ih => exact ih (key?_feed held feed)

theorem freeze_of_held (held : builder.key? = some key) : ∃ row, builder.freeze = .ok row ∧ row.key = key := by
  simp only [freeze, held]
  exact ⟨_, rfl, rfl⟩

/-- The columns are of the row whose key the builder holds. -/
structure OneRow (layout : KeyLayout) (columns : List Column) (builder : RowBuilder) : Prop where
  builderLayout : builder.layout = layout
  keyLayout : ∀ key ∈ builder.key?, key.layout = layout
  matched : ∀ column ∈ columns, ∃ key ∈ builder.key?, key.matchesRow column.rowKey = true

namespace OneRow

variable {layout : KeyLayout} {column : Column}

theorem rekey (oneRow : OneRow layout columns builder) (fresh : builder.key? = none)
    (parsed : RowKey.ofBytes builder.layout column.rowKey = .ok key) :
    OneRow layout columns { builder with key? := some key } := by
  refine ⟨oneRow.builderLayout, ?_, ?_⟩
  · rintro _ ⟨⟩
    rw [(RowKey.ofBytes_ok parsed).1, oneRow.builderLayout]
  · intro other member
    -- Without a key nothing has been accepted yet.
    obtain ⟨_, held, _⟩ := oneRow.matched other member
    rw [fresh] at held
    cases held

theorem append {after : RowBuilder} (oneRow : OneRow layout columns builder) (held : builder.key? = some key)
    (matched : key.matchesRow column.rowKey = true) (appended : builder.append column = (.ok (), after)) :
    OneRow layout (columns ++ [column]) after := by
  rw [frame_of_append appended]
  refine ⟨oneRow.builderLayout, oneRow.keyLayout, ?_⟩
  intro other member
  rcases List.mem_append.mp member with earlier | last
  · exact oneRow.matched other earlier
  · rw [List.mem_singleton.mp last]
    exact ⟨key, held, matched⟩

/-- The key of any of the columns agrees with the key of the row that the builder is frozen to. -/
theorem freeze (oneRow : OneRow layout columns builder) (member : column ∈ columns) :
    ∃ row own, builder.freeze = .ok row ∧ row.key.layout = layout ∧
      RowKey.ofBytes layout column.rowKey = .ok own ∧ row.key.SameParts own := by
  obtain ⟨key, held, matched⟩ := oneRow.matched column member
  have keyLayout := oneRow.keyLayout key held
  obtain ⟨own, parsed, same⟩ := RowKey.exists_sameRow matched
  rw [keyLayout] at parsed
  obtain ⟨row, rowFrozen, rfl⟩ := freeze_of_held held
  exact ⟨row, own, rowFrozen, keyLayout, parsed, same.sameParts⟩

end OneRow

variable {query : Query} {settings : Settings}

theorem feedAll_oneRow (created : create query settings = .ok start) (feeds : List Feed) :
    OneRow settings.layout (start.accepted feeds) (start.feedAll feeds) := by
  refine feedAll_induction ?_ (fun _ _ _ _ oneRow fresh parsed => oneRow.rekey fresh parsed)
    (fun _ _ _ _ _ oneRow held matched appended => oneRow.append held matched appended) feeds
  rw [(create_ok created).2]
  refine ⟨rfl, ?_, ?_⟩
  · rintro _ ⟨⟩
  · rintro _ ⟨⟩

/-- However columns are fed to a new builder, a key that it has once it has for good. Where widths add up, every column
that it accepts has a key of the settings' layout, and the parts of that key are those of the key that the row is
frozen with, its tags included. -/
theorem accepted_of_one_row (created : create query settings = .ok start) (addsUp : settings.layout.AddsUp)
    (feeds : List Feed) :
    (∀ earlier later, feeds = earlier ++ later → ∀ key, (start.feedAll earlier).key? = some key →
      (start.feedAll feeds).key? = some key) ∧
      ∀ column ∈ start.accepted feeds, ∃ row own, (start.feedAll feeds).freeze = .ok row ∧
        row.key.layout = settings.layout ∧ RowKey.ofBytes settings.layout column.rowKey = .ok own ∧
        row.key.SameParts own ∧ own.tags? = some row.key.tags := by
  refine ⟨?_, ?_⟩
  · rintro earlier later rfl key held
    rw [feedAll_append]
    exact key?_feedAll held later
  · intro column member
    obtain ⟨row, own, frozen, layout, parsed, same⟩ := (feedAll_oneRow created feeds).freeze member
    refine ⟨row, own, frozen, layout, parsed, same, ?_⟩
    rw [same.tags, RowKey.tags?_of_addsUp (layout ▸ addsUp)]

/-! Keys with a pair of tags and half of another. The second column has a salt of its own, and the third is of another
row. -/

def taggedKey (salt metric : UInt8) : Bytes := [salt, 0, 0, metric, 0, 0, 0, 60, 0, 0, 2, 0, 0, 3, 8, 9]

def taggedFeeds : List Feed :=
  [.first ⟨taggedKey 7 1, [0, 0, 16], [4], 1⟩, .add ⟨taggedKey 5 1, [1, 0, 16], [2], 1⟩,
    .push ⟨taggedKey 7 4, [0, 0, 32], [6], 1⟩]

theorem accepted_of_one_row_tagged :
    create Gappy.query saltedSettings = .ok saltedStart ∧ saltedSettings.layout.AddsUp ∧
      (⟨taggedKey 5 1, [1, 0, 16], [2], 1⟩ : Column) ∈ saltedStart.accepted taggedFeeds ∧
      ∃ row own, (saltedStart.feedAll taggedFeeds).freeze = .ok row ∧
        RowKey.ofBytes saltedSettings.layout (taggedKey 5 1) = .ok own ∧ row.key.SameParts own ∧
        row.key.salt = [7] ∧ own.salt = [5] ∧ own.tags? = some row.key.tags ∧ own.trailing = [8, 9] := by
  have created : create Gappy.query saltedSettings = .ok saltedStart := rfl
  have taken : (⟨taggedKey 5 1, [1, 0, 16], [2], 1⟩ : Column) ∈ saltedStart.accepted taggedFeeds := by decide
  have addsUp : saltedSettings.layout.AddsUp := ⟨by decide, by decide⟩
  obtain ⟨row, own, frozen, _, parsed, same, tags⟩ := (accepted_of_one_row created addsUp taggedFeeds).2 _ taken
  refine ⟨created, addsUp, taken, row, own, frozen, parsed, same, ?_, ?_, tags, ?_⟩
  · cases frozen
    rfl
  · cases parsed
    rfl
  · cases parsed
    decide +kernel

/-- Where the pairs of tags have no width, a column is accepted whose tags are not those of the row, which has none to
read. -/
theorem accepted_of_one_row_untagged :
    create dailyQuery unpairedSettings = .ok unpairedStart ∧
      unpairedStart.accepted [.first ⟨Gappy.rowKey ++ [9], [0, 0, 16], [4], 1⟩] =
        [⟨Gappy.rowKey ++ [9], [0, 0, 16], [4], 1⟩] ∧
      ∃ row, (unpairedStart.feedAll [.first ⟨Gappy.rowKey ++ [9], [0, 0, 16], [4], 1⟩]).freeze = .ok row ∧
        row.key.tags? = none :=
  ⟨rfl, rfl, _, rfl, rfl⟩

end RowBuilder

end Rollup
