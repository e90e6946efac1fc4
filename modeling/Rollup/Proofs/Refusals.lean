import Rollup.Proofs.SameRow

/-! A refused column may give a new builder its key and does nothing else. Feeding only the accepted columns to a
second builder gives it the same streams. Its key may have another salt, which no reader of the row sees. -/

namespace Rollup

namespace Selection

theorem classify_error {selection : Selection} {qualifier : Bytes} {cause : AppendError}
    (refused : selection.classify qualifier = .error cause) :
    cause = .foreignQualifier qualifier selection.primary selection.counted := by
  simp only [classify] at refused
  split_ifs at refused
  cases refused
  rfl

/-- A cell is refused for its qualifier, or else for its bytes. -/
theorem entry_error {selection : Selection} {column : Column} {cause : Error}
    (refused : selection.entry column = .error cause) :
    cause = .append (.foreignQualifier column.qualifier selection.primary selection.counted) ∨
      ∃ fault, cause = .cell fault := by
  unfold entry at refused
  split at refused
  · next routed =>
    cases refused
    exact .inl (by rw [classify_error routed])
  · right
    split at refused
    · cases refused
      exact ⟨_, rfl⟩
    · split at refused
      · cases refused
        exact ⟨_, rfl⟩
      · cases refused

end Selection

theorem StreamBuilder.append_error {builder : StreamBuilder} {kind : StreamKind} {fixDuplicates : Bool} {field : Field}
    {payload : Bytes} {written : UInt64} {cause : AppendError}
    (refused : (builder.append kind fixDuplicates field payload written).1 = .error cause) :
    ∃ last, cause = .outOfOrder kind field.offset last := by
  unfold append at refused
  split at refused
  · cases refused
  · split_ifs at refused
    cases refused
    exact ⟨_, rfl⟩

namespace RowBuilder

section Reasons
variable {builder : RowBuilder} {column : Column} {cause : Error}

/-- A cell is refused for its qualifier, for its bytes, or for its offset. -/
theorem append_error (refused : (builder.append column).1 = .error cause) :
    cause = .append (.foreignQualifier column.qualifier builder.selection.primary builder.selection.counted) ∨
      (∃ fault, cause = .cell fault) ∨ ∃ kind offset last, cause = .append (.outOfOrder kind offset last) := by
  rw [append_eq] at refused
  split at refused
  · next made =>
    cases refused
    exact (Selection.entry_error made).imp_right .inl
  · next kind entry _ =>
    dsimp only at refused
    generalize told : ((builder.stream kind).append kind builder.fixDuplicates entry.field entry.column.value
      entry.column.timestamp).1 = result at refused
    cases result with
    | error cause =>
      cases refused
      obtain ⟨last, rfl⟩ := StreamBuilder.append_error told
      exact .inr (.inr ⟨kind, _, last, rfl⟩)
    | ok _ => cases refused

theorem append_ne_overflow : (builder.append column).1 ≠ .error .overflow := by
  intro stopped
  rcases append_error stopped with foreign | ⟨_, fault⟩ | ⟨_, _, _, late⟩
  · cases foreign
  · cases fault
  · cases late

private theorem setFirst_ne_overflow (word : builder.layout.minLength ≤ Word.largest) :
    (builder.setFirst column).1 ≠ .error .overflow := by
  unfold setFirst
  split
  · simp
  · split
    · next refused =>
      rw [RowKey.ofBytes_error word refused]
      simp
    · exact append_ne_overflow

private theorem add_ne_overflow : (builder.add column).1 ≠ .error .overflow := by
  unfold add
  split
  · simp
  · split
    · exact append_ne_overflow
    · simp

/-- Where the widths in front of the tags add up, nothing that is fed to a builder stops the program. -/
theorem feed_ne_overflow (word : builder.layout.minLength ≤ Word.largest) (feed : Feed) :
    (builder.feed feed).1 ≠ .error .overflow := by
  cases feed with
  | first column => exact setFirst_ne_overflow word
  | add column => exact add_ne_overflow
  | push column =>
    simp only [RowBuilder.feed, push]
    split
    · exact setFirst_ne_overflow word
    · exact add_ne_overflow

end Reasons

/-- A refused column leaves both streams as they were. -/
theorem stream_of_refused {builder after : RowBuilder} {feed : Feed} {cause : Error}
    (refused : builder.feed feed = (.error cause, after)) (kind : StreamKind) :
    after.stream kind = builder.stream kind := by
  have fed := builder.feed_fed feed
  rw [refused] at fed
  cases fed with
  | refused => rfl
  | keyed => cases kind <;> rfl

/-- The second builder was pushed only what the first accepted. It has the same streams, and a key of the same row as
soon as it has one. -/
structure Twin (first second : RowBuilder) : Prop where
  frame : second = { first with key? := second.key? }
  layout : ∀ key ∈ first.key?, key.layout = first.layout
  keys : ∀ key ∈ second.key?, ∃ held ∈ first.key?, held.SameRow key

namespace Twin

variable {first second : RowBuilder}

/-- What the first builder takes from an accepted column, the second takes as well. -/
theorem stored {key : RowKey} {column : Column} {after : RowBuilder} (twin : Twin first second)
    (belongs : first.Belongs key column)
    (appended : { first with key? := some key }.append column = (.ok (), after)) :
    ∃ other, second.push column = (.ok (), other) ∧ Twin after other ∧ other.key?.isSome = true := by
  have layout : key.layout = first.layout := by
    rcases belongs with ⟨_, parsed⟩ | ⟨held, _⟩
    · exact (RowKey.ofBytes_ok parsed).1
    · exact twin.layout key held
  have matched : key.matchesRow column.rowKey = true := by
    rcases belongs with ⟨_, parsed⟩ | ⟨_, matched⟩
    · exact matchesRow_of_parsed parsed
    · exact matched
  obtain ⟨own, belongsToo, same⟩ : ∃ own, second.Belongs own column ∧ key.SameRow own := by
    cases held : second.key? with
    | none =>
      obtain ⟨own, parsed, same⟩ := RowKey.exists_sameRow matched
      rw [layout, show first.layout = second.layout by rw [twin.frame]] at parsed
      exact ⟨own, .inl ⟨held, parsed⟩, same⟩
    | some own =>
      obtain ⟨firstKey, firstHeld, same⟩ := twin.keys own held
      obtain ⟨fresh, _⟩ | ⟨heldToo, _⟩ := belongs
      · rw [fresh] at firstHeld
        cases firstHeld
      · rw [heldToo] at firstHeld
        cases firstHeld
        exact ⟨own, .inr ⟨held, (same.matchesRow _).trans matched⟩, same⟩
  have rekeyed : ({ second with key? := some own } : RowBuilder).append column =
      (.ok (), { after with key? := some own }) := by
    have frame : ({ second with key? := some own } : RowBuilder) =
        { { first with key? := some key } with key? := some own } := by rw [twin.frame]
    rw [frame, append_rekey, appended]
  refine ⟨{ after with key? := some own }, ?_, ⟨rfl, ?_, ?_⟩, rfl⟩
  · rw [push_of_belongs belongsToo, rekeyed]
  · intro other member
    rw [frame_of_append appended] at member ⊢
    cases member
    exact layout
  · intro other member
    cases member
    rw [frame_of_append appended]
    exact ⟨key, rfl, same⟩

/-- One feed: a refused column is not pushed to the second builder, an accepted one is accepted there too. -/
theorem feed (twin : Twin first second) (feed : Feed) :
    match (first.feed feed).1 with
    | .error _ => Twin (first.feed feed).2 second
    | .ok () => ∃ other, second.push feed.column = (.ok (), other) ∧ Twin (first.feed feed).2 other ∧
        other.key?.isSome = true := by
  have fed := first.feed_fed feed
  generalize first.feed feed = outcome at fed ⊢
  obtain ⟨result, after⟩ := outcome
  cases fed with
  | refused => exact twin
  | keyed cause key fresh parsed =>
    have unkeyed : second.key? = none := by
      cases held : second.key? with
      | none => rfl
      | some own =>
        obtain ⟨_, firstHeld, _⟩ := twin.keys own held
        rw [fresh] at firstHeld
        cases firstHeld
    refine ⟨twin.frame, ?_, ?_⟩
    · intro other member
      cases member
      exact (RowKey.ofBytes_ok parsed).1
    · intro other member
      rw [unkeyed] at member
      cases member
  | stored key _ belongs appended => exact twin.stored belongs appended

theorem pushAll (twin : Twin first second) (feeds : List Feed) :
    ∃ after, second.pushAll (first.accepted feeds) = .ok after ∧ Twin (first.feedAll feeds) after ∧
      (second.key?.isSome = true ∨ first.accepted feeds ≠ [] → after.key?.isSome = true) := by
  induction feeds generalizing first second with
  | nil => exact ⟨second, rfl, twin, by simp [accepted]⟩
  | cons feed feeds ih =>
    have step := twin.feed feed
    rw [feedAll_cons, accepted]
    generalize first.feed feed = outcome at step ⊢
    obtain ⟨result, next⟩ := outcome
    cases result with
    | error cause => exact ih step
    | ok _ =>
      obtain ⟨other, pushed, kept, keyed⟩ := step
      obtain ⟨after, rest, twin', still⟩ := ih kept
      refine ⟨after, ?_, twin', fun _ => still (.inl keyed)⟩
      simp only [RowBuilder.pushAll, pushed]
      exact rest

end Twin

variable {query : Query} {settings : Settings} {start : RowBuilder}

private theorem twin_start (created : create query settings = .ok start) : Twin start start := by
  have fresh : start.key? = none := by rw [(create_ok created).2]
  refine ⟨rfl, ?_, ?_⟩
  all_goals
    intro key member
    rw [fresh] at member
    cases member

private theorem layout_start (created : create query settings = .ok start) : start.layout = settings.layout := by
  rw [(create_ok created).2]

/-- Nothing that is fed to a new builder stops the program where widths add up. -/
theorem feedAll_ne_overflow (created : create query settings = .ok start) (addsUp : settings.layout.AddsUp)
    (earlier : List Feed) (feed : Feed) : ((start.feedAll earlier).feed feed).1 ≠ .error .overflow := by
  refine feed_ne_overflow ?_ feed
  rw [layout_feedAll, layout_start created]
  exact addsUp.front

/-- However columns are fed to a new builder whose widths add up, each refused one has an error of its own and changes
neither stream. If any is accepted, pushing the accepted ones alone to a builder made anew accepts them all, and the
rows that both are frozen to are alike, with all of their tags. -/
theorem accepted_alone_alike (created : create query settings = .ok start) (addsUp : settings.layout.AddsUp)
    (feeds : List Feed) (taken : start.accepted feeds ≠ []) :
    (∀ earlier feed later, feeds = earlier ++ feed :: later →
      ∀ cause after, (start.feedAll earlier).feed feed = (.error cause, after) →
        cause ≠ .overflow ∧ ∀ kind, after.stream kind = (start.feedAll earlier).stream kind) ∧
      ∃ builder row other, start.pushAll (start.accepted feeds) = .ok builder ∧
        (start.feedAll feeds).freeze = .ok row ∧ builder.freeze = .ok other ∧ row.Alike other ∧
        row.key.tags? = some row.key.tags ∧ other.key.tags? = some row.key.tags := by
  refine ⟨fun earlier feed _ _ cause after refused => ⟨?_, stream_of_refused refused⟩, ?_⟩
  · rintro rfl
    exact feedAll_ne_overflow created addsUp earlier feed (congrArg Prod.fst refused)
  · obtain ⟨builder, pushed, twin, keyed⟩ := (twin_start created).pushAll feeds
    obtain ⟨own, held⟩ := Option.isSome_iff_exists.mp (keyed (.inr taken))
    obtain ⟨key, firstHeld, same⟩ := twin.keys own held
    have frozen : ∃ row, (start.feedAll feeds).freeze = .ok row ∧ row.key = key ∧
        builder.freeze = .ok { row with key := own } := by
      rw [twin.frame, held]
      simp only [freeze, Option.mem_def.mp firstHeld]
      exact ⟨_, rfl, rfl, rfl⟩
    obtain ⟨row, rowFrozen, rfl, otherFrozen⟩ := frozen
    have alike := Row.alike_of_sameRow ((feedAll_holds created feeds).freeze rowFrozen) same
    have layout : row.key.layout = settings.layout := by
      rw [twin.layout _ firstHeld, layout_feedAll, layout_start created]
    have tags := RowKey.tags?_of_addsUp (layout ▸ addsUp)
    exact ⟨builder, row, _, pushed, rowFrozen, otherFrozen, alike, tags, alike.tags.trans tags⟩

/-! A row whose key is salted. The column that gives it the salt 7 is refused, as is one that falls back. -/

def saltedSettings : Settings := { Settings.default with layout := { salt := 1 } }

def saltedStart : RowBuilder := { Gappy.start with layout := saltedSettings.layout }

def saltedColumns : List Column :=
  [⟨7 :: Gappy.rowKey, [9, 0, 16], [1], 1⟩, ⟨3 :: Gappy.rowKey, [0, 0, 48], [2], 1⟩,
    ⟨4 :: Gappy.rowKey, [0, 0, 32], [5], 1⟩, ⟨4 :: Gappy.rowKey, [1, 0, 48], [6], 1⟩]

theorem accepted_alone_alike_salted :
    create Gappy.query saltedSettings = .ok saltedStart ∧ saltedSettings.layout.AddsUp ∧
      saltedStart.accepted (saltedColumns.map .push) =
        [⟨3 :: Gappy.rowKey, [0, 0, 48], [2], 1⟩, ⟨4 :: Gappy.rowKey, [1, 0, 48], [6], 1⟩] ∧
      ∃ row other, (saltedStart.feedAll (saltedColumns.map .push)).freeze = .ok row ∧ row.Alike other ∧
        row.key.salt = [7] ∧ other.key.salt = [3] := by
  have created : create Gappy.query saltedSettings = .ok saltedStart := rfl
  have taken : saltedStart.accepted (saltedColumns.map .push) =
      [⟨3 :: Gappy.rowKey, [0, 0, 48], [2], 1⟩, ⟨4 :: Gappy.rowKey, [1, 0, 48], [6], 1⟩] := rfl
  have addsUp : saltedSettings.layout.AddsUp := ⟨by decide, by decide⟩
  obtain ⟨_, builder, row, other, pushed, frozen, otherFrozen, alike, _⟩ :=
    accepted_alone_alike created addsUp (saltedColumns.map .push) (by rw [taken]; exact List.cons_ne_nil _ _)
  refine ⟨created, addsUp, taken, row, other, frozen, alike, ?_, ?_⟩
  · cases frozen
    rfl
  · cases pushed
    cases otherFrozen
    rfl

/-! A layout whose pairs of tags have no width that is a word. Columns are accepted and refused as ever, but the tags of
the row cannot be read. -/

/-- Sums in hours of a day. -/
def dailyQuery : Query := ⟨.sum, ⟨⟨3600, 0⟩, ⟨86400, 0⟩⟩⟩

def dailyStart : RowBuilder :=
  ⟨⟨.sum, 0, none⟩, {}, dailyQuery.granularity, .milliseconds, false, none, .empty, .empty⟩

def unpairedSettings : Settings :=
  { Settings.default with layout := { tagKey := 18446744073709551615, tagValue := 2 } }

def unpairedStart : RowBuilder := { dailyStart with layout := unpairedSettings.layout }

def unpairedColumns : List Column :=
  [⟨Gappy.rowKey ++ [9], [9, 0, 16], [7], 1⟩, ⟨Gappy.rowKey ++ [9], [0, 0, 16], [2], 1⟩]

/-- The second column is accepted and is accepted alone too, and neither row has tags that could be the same. -/
theorem accepted_alone_untagged :
    create dailyQuery unpairedSettings = .ok unpairedStart ∧
      unpairedStart.accepted (unpairedColumns.map .push) = unpairedColumns.drop 1 ∧
      ∃ builder row other, unpairedStart.pushAll (unpairedColumns.drop 1) = .ok builder ∧
        (unpairedStart.feedAll (unpairedColumns.map .push)).freeze = .ok row ∧ builder.freeze = .ok other ∧
        row.key.tags? = none ∧ other.key.tags? = none :=
  ⟨rfl, rfl, _, _, _, rfl, rfl, rfl, rfl, rfl⟩

end RowBuilder

end Rollup
