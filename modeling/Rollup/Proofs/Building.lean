import Mathlib.Data.List.Induction
import Rollup.Proofs.Ledger
import Rollup.RowBuilder

/-! Columns are fed to a builder in any order, and any of them may be refused. The accepted ones alone
decide what the streams hold: each stream stands for the ledger of the accepted columns that its
selection routes there. -/

namespace Rollup

namespace Selection

/-- The stream that takes a column and the entry it makes there, or the first thing that is wrong
with the column. -/
def entry (selection : Selection) (column : Column) : Except Error (StreamKind × Entry) :=
  match selection.classify column.qualifier with
  | .error cause => .error (.append cause)
  | .ok route =>
    match Field.read column.qualifier route.encoding.fieldStart with
    | .error cause => .error (.cell cause)
    | .ok field =>
      match fits : field.checkPayload column.value with
      | .error cause => .error (.cell cause)
      | .ok () => .ok (route.stream, ⟨column, field, fits⟩)

/-- The entries of one stream once the given columns were accepted one after the other. -/
def ledger (selection : Selection) (kind : StreamKind) (accepted : List Column) : List Entry :=
  accepted.foldl
    (fun stored column =>
      match selection.entry column with
      | .ok (stream, entry) => if stream = kind then Ledger.record stored entry else stored
      | .error _ => stored)
    []

variable {selection : Selection} {column : Column} {kind : StreamKind} {entry : Entry}

theorem entry_ok_iff :
    selection.entry column = .ok (kind, entry) ↔
      entry.column = column ∧ ∃ encoding, selection.classify column.qualifier = .ok ⟨kind, encoding⟩ ∧
        Field.read column.qualifier encoding.fieldStart = .ok entry.field := by
  obtain ⟨own, field, fits⟩ := entry
  unfold Selection.entry
  constructor
  · intro made
    split at made
    · cases made
    · next route routed =>
      split at made
      · cases made
      · next found read =>
        split at made
        · cases made
        · obtain ⟨stream, encoding⟩ := route
          simp only [Except.ok.injEq, Prod.mk.injEq, Entry.mk.injEq] at made
          obtain ⟨rfl, rfl, rfl⟩ := made
          exact ⟨rfl, encoding, routed, read⟩
  · rintro ⟨same, encoding, routed, read⟩
    simp only at same read
    subst column
    rw [routed]
    simp only [read]
    split
    · next refused => rw [fits] at refused; cases refused
    · rfl

theorem entry_column (made : selection.entry column = .ok (kind, entry)) : entry.column = column :=
  (entry_ok_iff.mp made).1

theorem ledger_concat (accepted : List Column) (made : selection.entry column = .ok (kind, entry)) :
    selection.ledger kind (accepted ++ [column]) = Ledger.record (selection.ledger kind accepted) entry := by
  simp only [ledger, List.foldl_append, List.foldl_cons, List.foldl_nil, made, if_true]

theorem ledger_concat_other (accepted : List Column) {other : StreamKind} (different : kind ≠ other)
    (made : selection.entry column = .ok (kind, entry)) :
    selection.ledger other (accepted ++ [column]) = selection.ledger other accepted := by
  simp only [ledger, List.foldl_append, List.foldl_cons, List.foldl_nil, made, different, if_false]

private theorem ledger_concat_error {cause : Error} (accepted : List Column)
    (refused : selection.entry column = .error cause) :
    selection.ledger kind (accepted ++ [column]) = selection.ledger kind accepted := by
  simp only [ledger, List.foldl_append, List.foldl_cons, List.foldl_nil, refused]

theorem mem_ledger {accepted : List Column} (member : entry ∈ selection.ledger kind accepted) :
    entry.column ∈ accepted ∧ selection.entry entry.column = .ok (kind, entry) := by
  induction accepted using List.reverseRecOn with
  | nil => cases member
  | append_singleton accepted column ih =>
    have earlier (old : entry ∈ selection.ledger kind accepted) :
        entry.column ∈ accepted ++ [column] ∧ selection.entry entry.column = .ok (kind, entry) :=
      ⟨List.mem_append_left _ (ih old).1, (ih old).2⟩
    cases made : selection.entry column with
    | error cause =>
      rw [ledger_concat_error accepted made] at member
      exact earlier member
    | ok result =>
      obtain ⟨stream, new⟩ := result
      by_cases same : stream = kind
      · subst stream
        rw [ledger_concat accepted made] at member
        rcases Ledger.mem_record member with rfl | old
        · rw [entry_column made]
          exact ⟨by simp, made⟩
        · exact earlier old
      · rw [ledger_concat_other accepted same made] at member
        exact earlier member

end Selection

inductive Feed
  | first (column : Column)
  | add (column : Column)
  | push (column : Column)

def Feed.column : Feed → Column
  | first column | add column | push column => column

namespace RowBuilder

def feed (builder : RowBuilder) : Feed → Except Error Unit × RowBuilder
  | .first column => builder.setFirst column
  | .add column => builder.add column
  | .push column => builder.push column

/-- The builder after all feeds, whatever came of each. -/
def feedAll (builder : RowBuilder) (feeds : List Feed) : RowBuilder :=
  feeds.foldl (fun builder feed => (builder.feed feed).2) builder

def accepted (builder : RowBuilder) : List Feed → List Column
  | [] => []
  | feed :: feeds =>
    match builder.feed feed with
    | (.ok (), after) => feed.column :: after.accepted feeds
    | (.error _, after) => after.accepted feeds

theorem append_eq (builder : RowBuilder) (column : Column) :
    builder.append column =
      match builder.selection.entry column with
      | .error cause => (.error cause, builder)
      | .ok (kind, entry) =>
        let grown := (builder.stream kind).append kind builder.fixDuplicates entry.field entry.column.value
          entry.column.timestamp
        (grown.1.mapError .append, builder.setStream kind grown.2) := by
  cases made : builder.selection.entry column with
  | error cause =>
    unfold Selection.entry at made
    split at made
    · next routed =>
      cases made
      simp only [append, routed]
    · next route routed =>
      split at made
      · next read =>
        cases made
        simp only [append, routed, read]
      · next field read =>
        split at made
        · next refused =>
          cases made
          simp only [append, routed, read, refused]
        · cases made
  | ok result =>
    obtain ⟨kind, entry⟩ := result
    obtain ⟨rfl, encoding, routed, read⟩ := Selection.entry_ok_iff.mp made
    simp only [append, routed, read, entry.fits]

section Append
variable {builder after : RowBuilder} {column : Column} {result : Except Error Unit}

theorem setStream_stream (builder : RowBuilder) (kind : StreamKind) :
    builder.setStream kind (builder.stream kind) = builder := by
  cases kind <;> rfl

/-- A cell that is refused leaves all as it was. -/
theorem append_refused {cause : Error} (refused : builder.append column = (.error cause, after)) :
    after = builder := by
  rw [append_eq] at refused
  split at refused
  · cases refused
    rfl
  · next kind entry _ =>
    dsimp only at refused
    generalize grown : (builder.stream kind).append kind builder.fixDuplicates entry.field entry.column.value
      entry.column.timestamp = outcome at refused
    obtain ⟨result, stream⟩ := outcome
    cases result with
    | error cause =>
      cases refused
      rw [StreamBuilder.append_refused grown, setStream_stream]
    | ok _ => cases refused

/-- Appending changes the streams alone. -/
theorem frame_of_append (appended : builder.append column = (result, after)) :
    after = { builder with values := after.values, counts := after.counts } := by
  rw [append_eq] at appended
  split at appended
  · cases appended
    rfl
  · next kind _ _ =>
    cases appended
    cases kind <;> rfl

theorem frame_append (builder : RowBuilder) (column : Column) :
    (builder.append column).2 =
      { builder with values := (builder.append column).2.values, counts := (builder.append column).2.counts } :=
  frame_of_append rfl

theorem append_rekey (builder : RowBuilder) (key? : Option RowKey) (column : Column) :
    ({ builder with key? } : RowBuilder).append column =
      ((builder.append column).1, { (builder.append column).2 with key? }) := by
  rw [append_eq, append_eq]
  cases builder.selection.entry column with
  | error cause => rfl
  | ok result =>
    obtain ⟨kind, entry⟩ := result
    cases kind <;> rfl

end Append

theorem matchesRow_of_parsed {layout : KeyLayout} {bytes : Bytes} {key : RowKey}
    (parsed : RowKey.ofBytes layout bytes = .ok key) : key.matchesRow bytes = true := by
  rw [(RowKey.ofBytes_ok parsed).2.symm]
  simp [RowKey.matchesRow]

/-- The column is of the row with the given key, which a builder without a key takes from it. -/
def Belongs (builder : RowBuilder) (key : RowKey) (column : Column) : Prop :=
  builder.key? = none ∧ RowKey.ofBytes builder.layout column.rowKey = .ok key ∨
    builder.key? = some key ∧ key.matchesRow column.rowKey = true

/-- What one feed does: a refused column leaves the streams alone, though it may have set the key; an
accepted one belongs to the key and is appended. -/
inductive Fed (builder : RowBuilder) (column : Column) : Except Error Unit → RowBuilder → Prop
  | refused (cause : Error) : Fed builder column (.error cause) builder
  | keyed (cause : Error) (key : RowKey) (fresh : builder.key? = none)
      (parsed : RowKey.ofBytes builder.layout column.rowKey = .ok key)
      (failed : ({ builder with key? := some key }.append column).1 = .error cause) :
      Fed builder column (.error cause) { builder with key? := some key }
  | stored (key : RowKey) (after : RowBuilder) (belongs : builder.Belongs key column)
      (appended : { builder with key? := some key }.append column = (.ok (), after)) :
      Fed builder column (.ok ()) after

theorem push_of_belongs {builder : RowBuilder} {key : RowKey} {column : Column}
    (belongs : builder.Belongs key column) :
    builder.push column = { builder with key? := some key }.append column := by
  rcases belongs with ⟨fresh, parsed⟩ | ⟨held, matched⟩
  · simp only [push, fresh, setFirst, parsed]
  · have same : { builder with key? := some key } = builder := by rw [← held]
    rw [same]
    simp only [push, held, add, matched, if_true]

private theorem setFirst_fed (builder : RowBuilder) (column : Column) :
    Fed builder column (builder.setFirst column).1 (builder.setFirst column).2 := by
  unfold setFirst
  cases fresh : builder.key? with
  | some key => exact .refused _
  | none =>
    cases parsed : RowKey.ofBytes builder.layout column.rowKey with
    | error cause => exact .refused _
    | ok key =>
      dsimp only
      generalize appended : { builder with key? := some key }.append column = outcome
      obtain ⟨result, after⟩ := outcome
      cases result with
      | error cause =>
        obtain rfl := append_refused appended
        exact .keyed cause key fresh parsed (congrArg Prod.fst appended)
      | ok _ => exact .stored key after (.inl ⟨fresh, parsed⟩) appended

private theorem add_fed (builder : RowBuilder) (column : Column) :
    Fed builder column (builder.add column).1 (builder.add column).2 := by
  unfold add
  cases held : builder.key? with
  | none => exact .refused _
  | some key =>
    simp only
    split
    · next belongs =>
      have same : { builder with key? := some key } = builder := by rw [← held]
      generalize appended : builder.append column = outcome
      obtain ⟨result, after⟩ := outcome
      cases result with
      | error cause =>
        obtain rfl := append_refused appended
        exact .refused cause
      | ok _ => exact .stored key after (.inr ⟨held, belongs⟩) (by rw [same]; exact appended)
    · exact .refused _

theorem feed_fed (builder : RowBuilder) (feed : Feed) :
    Fed builder feed.column (builder.feed feed).1 (builder.feed feed).2 := by
  cases feed with
  | first column => exact setFirst_fed builder column
  | add column => exact add_fed builder column
  | push column =>
    simp only [RowBuilder.feed, push, Feed.column]
    split
    · exact setFirst_fed builder column
    · exact add_fed builder column

theorem layout_feed (builder : RowBuilder) (feed : Feed) : (builder.feed feed).2.layout = builder.layout := by
  have fed := builder.feed_fed feed
  generalize builder.feed feed = outcome at fed ⊢
  obtain ⟨result, after⟩ := outcome
  cases fed with
  | refused => rfl
  | keyed => rfl
  | stored key after _ appended => rw [frame_of_append appended]

/-- How a builder stands once the given columns were accepted: only its key and its streams have
changed, and each stream holds its ledger, in strictly increasing order. -/
structure Holds (start : RowBuilder) (columns : List Column) (builder : RowBuilder) : Prop where
  frame : builder = { start with key? := builder.key?, values := builder.values, counts := builder.counts }
  stream : ∀ kind, builder.stream kind = .holding (start.selection.ledger kind columns)
  increasing : ∀ kind, Increasing ((start.selection.ledger kind columns).map Entry.cell)

namespace Holds

variable {start builder : RowBuilder} {columns : List Column}

theorem selection (holds : Holds start columns builder) : builder.selection = start.selection := by
  rw [holds.frame]

theorem fixDuplicates (holds : Holds start columns builder) : builder.fixDuplicates = start.fixDuplicates := by
  rw [holds.frame]

theorem rekey (holds : Holds start columns builder) (key : RowKey) :
    Holds start columns { builder with key? := some key } := by
  refine ⟨?_, ?_, holds.increasing⟩
  · rw [holds.frame]
  · intro kind
    rw [← holds.stream kind]
    cases kind <;> rfl

section Append
variable {column : Column} {kind : StreamKind} {entry : Entry}

theorem append_of_admits (holds : Holds start columns builder)
    (made : start.selection.entry column = .ok (kind, entry))
    (admitted : Ledger.Admits start.fixDuplicates (start.selection.ledger kind columns) entry) :
    builder.append column =
      (.ok (), builder.setStream kind (.holding (Ledger.record (start.selection.ledger kind columns) entry))) := by
  rw [append_eq, holds.selection, holds.fixDuplicates, made]
  simp only [holds.stream kind, StreamBuilder.append_of_admits admitted, Except.mapError]

theorem append_of_not_admits (holds : Holds start columns builder)
    (made : start.selection.entry column = .ok (kind, entry))
    (refused : ¬ Ledger.Admits start.fixDuplicates (start.selection.ledger kind columns) entry) :
    ∃ last ∈ (start.selection.ledger kind columns).getLast?,
      builder.append column = (.error (.append (.outOfOrder kind entry.offset last.offset)), builder) := by
  obtain ⟨last, member, failed⟩ := @StreamBuilder.append_of_not_admits kind _ _ _ refused
  refine ⟨last, member, ?_⟩
  rw [append_eq, holds.selection, holds.fixDuplicates, made]
  simp only [holds.stream kind, failed, Except.mapError]
  rw [← holds.stream kind, setStream_stream]

/-- An appended column made an entry that its stream admits. -/
theorem admitted {after : RowBuilder} (holds : Holds start columns builder)
    (appended : builder.append column = (.ok (), after)) :
    ∃ kind entry, start.selection.entry column = .ok (kind, entry) ∧
      Ledger.Admits start.fixDuplicates (start.selection.ledger kind columns) entry := by
  cases made : start.selection.entry column with
  | error cause =>
    rw [append_eq, holds.selection, made] at appended
    cases appended
  | ok result =>
    obtain ⟨kind, entry⟩ := result
    refine ⟨kind, entry, rfl, ?_⟩
    by_contra refused
    obtain ⟨last, _, failed⟩ := holds.append_of_not_admits made refused
    rw [failed] at appended
    cases appended

theorem append {after : RowBuilder} (holds : Holds start columns builder)
    (appended : builder.append column = (.ok (), after)) : Holds start (columns ++ [column]) after := by
  obtain ⟨kind, entry, made, admitted⟩ := holds.admitted appended
  rw [holds.append_of_admits made admitted] at appended
  cases appended
  have ledger := Selection.ledger_concat columns made
  refine ⟨?_, ?_, ?_⟩
  · rw [holds.frame]
    cases kind <;> rfl
  · intro other
    by_cases same : kind = other
    · subst other
      rw [ledger]
      cases kind <;> rfl
    · rw [Selection.ledger_concat_other columns same made, ← holds.stream other]
      cases kind <;> cases other <;> first | rfl | exact absurd rfl same
  · intro other
    by_cases same : kind = other
    · subst other
      rw [ledger]
      exact Ledger.increasing_record (holds.increasing kind) admitted
    · rw [Selection.ledger_concat_other columns same made]
      exact holds.increasing other

end Append

end Holds

theorem feedAll_cons (builder : RowBuilder) (feed : Feed) (feeds : List Feed) :
    builder.feedAll (feed :: feeds) = (builder.feed feed).2.feedAll feeds := rfl

theorem layout_feedAll (builder : RowBuilder) (feeds : List Feed) :
    (builder.feedAll feeds).layout = builder.layout := by
  induction feeds generalizing builder with
  | nil => rfl
  | cons feed feeds ih => rw [feedAll_cons, ih, layout_feed]

theorem feedAll_append (builder : RowBuilder) (first second : List Feed) :
    builder.feedAll (first ++ second) = (builder.feedAll first).feedAll second := List.foldl_append

theorem accepted_append (builder : RowBuilder) (first second : List Feed) :
    builder.accepted (first ++ second) = builder.accepted first ++ (builder.feedAll first).accepted second := by
  induction first generalizing builder with
  | nil => rfl
  | cons feed first ih =>
    rw [List.cons_append, accepted, accepted, feedAll_cons]
    generalize builder.feed feed = outcome
    obtain ⟨result, after⟩ := outcome
    cases result with
    | ok _ => exact congrArg (feed.column :: ·) (ih after)
    | error _ => exact ih after

/-- What feeding preserves: it may give a key to a builder without one, and it appends columns of the key's row. -/
theorem feedAll_induction {motive : List Column → RowBuilder → Prop} {start : RowBuilder} (init : motive [] start)
    (keyed : ∀ columns builder (column : Column) key, motive columns builder → builder.key? = none →
      RowKey.ofBytes builder.layout column.rowKey = .ok key → motive columns { builder with key? := some key })
    (stored : ∀ columns builder (column : Column) (key : RowKey) after, motive columns builder →
      builder.key? = some key →
      key.matchesRow column.rowKey = true → builder.append column = (.ok (), after) →
      motive (columns ++ [column]) after)
    (feeds : List Feed) : motive (start.accepted feeds) (start.feedAll feeds) := by
  -- The columns accepted so far are kept apart, since a later feed is judged by the builder it meets.
  have onward (columns : List Column) (builder : RowBuilder) (holds : motive columns builder) :
      motive (columns ++ builder.accepted feeds) (builder.feedAll feeds) := by
    induction feeds generalizing columns builder with
    | nil => simpa only [accepted, List.append_nil, feedAll, List.foldl_nil] using holds
    | cons feed feeds ih =>
      have fed := builder.feed_fed feed
      rw [feedAll_cons, accepted]
      generalize builder.feed feed = outcome at fed ⊢
      obtain ⟨result, after⟩ := outcome
      cases fed with
      | refused cause => exact ih columns _ holds
      | keyed cause key fresh parsed failed => exact ih columns _ (keyed _ _ _ key holds fresh parsed)
      | stored key after belongs appended =>
        have kept : motive (columns ++ [feed.column]) after := by
          rcases belongs with ⟨fresh, parsed⟩ | ⟨held, matched⟩
          · exact stored _ _ _ key after (keyed _ _ _ key holds fresh parsed) rfl (matchesRow_of_parsed parsed) appended
          · have same : { builder with key? := some key } = builder := by rw [← held]
            rw [same] at appended
            exact stored _ _ _ key after holds held matched appended
        have rest := ih (columns ++ [feed.column]) after kept
        rwa [List.append_assoc, List.singleton_append] at rest
  exact onward [] start init

variable {query : Query} {settings : Settings} {start : RowBuilder}

theorem create_ok (created : create query settings = .ok start) :
    select query settings = .ok start.selection ∧
      start = ⟨start.selection, settings.layout, query.granularity, settings.resolution, settings.fixDuplicates,
        none, .empty, .empty⟩ := by
  unfold create at created
  split at created
  · cases created
  · split at created
    · cases created
    · split at created
      · cases created
      · next selected =>
        cases created
        exact ⟨selected, rfl⟩

theorem create_holds (created : create query settings = .ok start) : Holds start [] start := by
  rw [(create_ok created).2]
  refine ⟨rfl, ?_, ?_⟩
  · intro kind
    cases kind <;> rfl
  · intro kind
    exact .nil

/-- However columns were fed to a new builder, its streams hold the ledgers of the accepted ones. -/
theorem feedAll_holds (created : create query settings = .ok start) (feeds : List Feed) :
    Holds start (start.accepted feeds) (start.feedAll feeds) :=
  feedAll_induction (create_holds created) (fun _ _ _ key holds _ _ => holds.rekey key)
    (fun _ _ _ _ _ holds _ _ appended => holds.append appended) feeds

end RowBuilder

end Rollup
