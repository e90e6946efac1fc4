import Rollup.Proofs.Representation

/-! A stream settles the cells that it is offered by their offsets and their times of writing. Offsets that fall
back are refused. Of cells that repeat the highest offset so far the one written first is kept, and of
those the last to arrive. -/

namespace Rollup

/-- The offset is the highest among the entries. -/
def Ledger.Highest (entries : List Entry) (offset : Nat) : Prop :=
  (∃ entry ∈ entries, entry.offset = offset) ∧ ∀ entry ∈ entries, entry.offset ≤ offset

/-- No accepted entry with the same offset was written before this one, nor did one that was written at the same
time arrive after it. -/
def Ledger.Earliest (accepted : List Entry) (entry : Entry) : Prop :=
  ∃ front back, accepted = front ++ entry :: back ∧
    (∀ other ∈ front, other.offset = entry.offset → entry.column.timestamp ≤ other.column.timestamp) ∧
    ∀ other ∈ back, other.offset = entry.offset → entry.column.timestamp < other.column.timestamp

namespace Ledger

/-- What is stored of the entries that were offered, given those among them that were accepted. Without settling
these are all stored; otherwise one is for every offset that was the highest at some time. -/
structure Keeps (fixDuplicates : Bool) (offered accepted stored : List Entry) : Prop where
  plain : fixDuplicates = false → stored = accepted
  increasing : stored.Pairwise fun first second => first.offset < second.offset
  climbed : ∀ offset, (∃ entry ∈ stored, entry.offset = offset) ↔
    ∃ seen, seen <+: offered ∧ Highest seen offset
  earliest : ∀ entry ∈ stored, Earliest accepted entry

/-- What is said to an entry that is offered after others. -/
structure Judged (fixDuplicates : Bool) (kind : StreamKind) (earlier : List Entry) (entry : Entry)
    (result : Except Error Unit) : Prop where
  accepted : result = .ok () ↔
    ∀ other ∈ earlier, other.offset < entry.offset ∨ fixDuplicates = true ∧ other.offset = entry.offset
  refused : result ≠ .ok () →
    ∃ last, Highest earlier last ∧ result = .error (.append (.outOfOrder kind entry.offset last))

section Earliest
variable {accepted : List Entry} {entry other : Entry}

private theorem Earliest.le (earliest : Earliest accepted entry) (member : other ∈ accepted)
    (same : other.offset = entry.offset) : entry.column.timestamp ≤ other.column.timestamp := by
  obtain ⟨front, back, rfl, before, after⟩ := earliest
  rcases List.mem_append.mp member with inFront | inRest
  · exact before other inFront same
  · rcases List.mem_cons.mp inRest with rfl | inBack
    · exact UInt64.le_refl _
    · exact UInt64.le_of_lt (after other inBack same)

private theorem Earliest.concat (earliest : Earliest accepted entry)
    (later : other.offset = entry.offset → entry.column.timestamp < other.column.timestamp) :
    Earliest (accepted ++ [other]) entry := by
  obtain ⟨front, back, rfl, before, after⟩ := earliest
  refine ⟨front, back ++ [other], by simp, before, ?_⟩
  intro cell member
  rcases List.mem_append.mp member with inBack | new
  · exact after cell inBack
  · rw [List.mem_singleton.mp new]
    exact later

private theorem earliest_concat_self
    (first : ∀ other ∈ accepted, other.offset = entry.offset → entry.column.timestamp ≤ other.column.timestamp) :
    Earliest (accepted ++ [entry]) entry := by
  refine ⟨accepted, [], rfl, first, ?_⟩
  intro other member
  cases member

end Earliest

private theorem climbed_concat {offered : List Entry} {entry : Entry} {offset : Nat} :
    (∃ seen, seen <+: offered ++ [entry] ∧ Highest seen offset) ↔
      (∃ seen, seen <+: offered ∧ Highest seen offset) ∨ Highest (offered ++ [entry]) offset := by
  constructor
  · rintro ⟨seen, shorter, highest⟩
    rcases List.prefix_concat_iff.mp shorter with rfl | inside
    · exact .inr highest
    · exact .inl ⟨seen, inside, highest⟩
  · rintro (⟨seen, inside, highest⟩ | highest)
    · exact ⟨seen, inside.trans (List.prefix_append _ _), highest⟩
    · exact ⟨_, List.prefix_rfl, highest⟩

theorem Highest.eq {entries : List Entry} {first second : Nat} (left : Highest entries first)
    (right : Highest entries second) : first = second := by
  obtain ⟨⟨entry, member, rfl⟩, above⟩ := left
  obtain ⟨⟨other, present, rfl⟩, above'⟩ := right
  exact Nat.le_antisymm (above' entry member) (above other present)

private theorem highest_concat_above {entries : List Entry} {entry : Entry}
    (above : ∀ other ∈ entries, other.offset ≤ entry.offset) : Highest (entries ++ [entry]) entry.offset := by
  refine ⟨⟨entry, by simp, rfl⟩, ?_⟩
  intro other member
  rcases List.mem_append.mp member with earlier | same
  · exact above other earlier
  · rw [List.mem_singleton.mp same]

private theorem Highest.concat_below {entries : List Entry} {entry : Entry} {offset : Nat}
    (highest : Highest entries offset) (below : entry.offset ≤ offset) : Highest (entries ++ [entry]) offset := by
  obtain ⟨⟨top, member, same⟩, above⟩ := highest
  refine ⟨⟨top, List.mem_append_left _ member, same⟩, ?_⟩
  intro other present
  rcases List.mem_append.mp present with earlier | new
  · exact above other earlier
  · rw [List.mem_singleton.mp new]
    exact below

/-- The last stored entry has the highest offset of all that were offered. -/
structure Settled (fixDuplicates : Bool) (offered accepted stored : List Entry) : Prop
    extends Keeps fixDuplicates offered accepted stored where
  within : accepted ⊆ offered
  top : ∀ last ∈ stored.getLast?, Highest offered last.offset
  untouched : stored = [] → offered = []

namespace Settled

variable {fixDuplicates : Bool} {offered accepted stored : List Entry} {entry : Entry}

theorem nil (fixDuplicates : Bool) : Settled fixDuplicates [] [] [] := by
  refine ⟨⟨fun _ => rfl, .nil, ?_, ?_⟩, List.Subset.refl _, ?_, fun _ => rfl⟩
  · intro offset
    constructor
    · rintro ⟨entry, member, _⟩
      cases member
    · rintro ⟨seen, inside, ⟨entry, member, _⟩, _⟩
      rw [List.prefix_nil.mp inside] at member
      cases member
  · intro entry member
    cases member
  · intro last member
    cases member

/-- The last stored entry stands for all that were offered. -/
theorem admits_iff (settled : Settled fixDuplicates offered accepted stored) :
    Admits fixDuplicates stored entry ↔
      ∀ other ∈ offered, other.offset < entry.offset ∨ fixDuplicates = true ∧ other.offset = entry.offset := by
  rcases List.eq_nil_or_concat stored with rfl | ⟨front, last, rfl⟩
  · rw [settled.untouched rfl]
    simp [Admits]
  · rw [List.concat_eq_append] at settled ⊢
    obtain ⟨⟨top, member, same⟩, above⟩ := settled.top last (by simp)
    rw [admits_concat]
    constructor
    · intro order other present
      have below := above other present
      by_cases less : other.offset < entry.offset
      · exact .inl less
      · rcases order with greater | ⟨fixed, repeated⟩
        · omega
        · exact .inr ⟨fixed, by omega⟩
    · intro order
      have first := order top member
      rwa [same] at first

theorem refuse (settled : Settled fixDuplicates offered accepted stored)
    (refused : ¬ Admits fixDuplicates stored entry) :
    Settled fixDuplicates (offered ++ [entry]) accepted stored := by
  rcases List.eq_nil_or_concat stored with rfl | ⟨front, last, rfl⟩
  · simp [Admits] at refused
  · rw [List.concat_eq_append] at settled refused ⊢
    have highest := settled.top last (by simp)
    have below : entry.offset ≤ last.offset := by
      have order := mt admits_concat.mpr refused
      omega
    refine ⟨⟨settled.plain, settled.increasing, ?_, settled.earliest⟩,
      fun _ member => List.mem_append_left _ (settled.within member), ?_, by simp⟩
    · intro offset
      rw [settled.climbed offset, climbed_concat]
      refine ⟨.inl, ?_⟩
      rintro (before | now)
      · exact before
      · rw [now.eq (highest.concat_below below)]
        exact ⟨offered, List.prefix_rfl, highest⟩
    · intro other member
      rw [List.getLast?_concat] at member
      cases member
      exact highest.concat_below below

private theorem climb (settled : Settled fixDuplicates offered accepted stored)
    (higher : ∀ last ∈ stored.getLast?, last.offset < entry.offset) :
    Settled fixDuplicates (offered ++ [entry]) (accepted ++ [entry]) (stored ++ [entry]) := by
  have above : ∀ other ∈ offered, other.offset < entry.offset := by
    rcases List.eq_nil_or_concat stored with rfl | ⟨front, last, rfl⟩
    · rw [settled.untouched rfl]
      simp
    · rw [List.concat_eq_append] at settled higher
      intro other member
      have greater := higher last (by simp)
      have most := (settled.top last (by simp)).2 other member
      omega
  have highest := highest_concat_above fun other member => Nat.le_of_lt (above other member)
  have kept (other : Entry) (member : other ∈ stored) : other.offset < entry.offset := by
    obtain ⟨front, back, shape, _⟩ := settled.earliest other member
    exact above other (settled.within (by simp [shape]))
  refine ⟨⟨?_, ?_, ?_, ?_⟩, ?_, ?_, by simp⟩
  · intro unfixed
    rw [settled.plain unfixed]
  · refine List.pairwise_append.mpr ⟨settled.increasing, List.pairwise_singleton _ _, ?_⟩
    intro other member new same
    rw [List.mem_singleton.mp same]
    exact kept other member
  · intro offset
    rw [climbed_concat, ← settled.climbed offset]
    constructor
    · rintro ⟨other, member, rfl⟩
      rcases List.mem_append.mp member with earlier | new
      · exact .inl ⟨other, earlier, rfl⟩
      · rw [List.mem_singleton.mp new]
        exact .inr highest
    · rintro (⟨other, member, rfl⟩ | now)
      · exact ⟨other, List.mem_append_left _ member, rfl⟩
      · exact ⟨entry, by simp, highest.eq now⟩
  · intro other member
    rcases List.mem_append.mp member with earlier | new
    · refine (settled.earliest other earlier).concat ?_
      intro same
      have less := kept other earlier
      omega
    · rw [List.mem_singleton.mp new]
      apply earliest_concat_self
      intro another present same
      have less := above another (settled.within present)
      omega
  · exact List.append_subset.mpr ⟨fun _ member => List.mem_append_left _ (settled.within member), by simp⟩
  · intro last member
    rw [List.getLast?_concat] at member
    cases member
    exact highest

section Repeat
variable {front : List Entry} {last : Entry}

private theorem highest_repeat (settled : Settled fixDuplicates offered accepted (front ++ [last]))
    (repeated : last.offset = entry.offset) :
    Highest (offered ++ [entry]) last.offset ∧
      ∀ offset, (∃ seen, seen <+: offered ++ [entry] ∧ Highest seen offset) ↔
        ∃ other ∈ front ++ [last], other.offset = offset := by
  have highest := settled.top last (by simp)
  have still := highest.concat_below (Nat.le_of_eq repeated.symm)
  refine ⟨still, ?_⟩
  intro offset
  rw [climbed_concat, ← settled.climbed offset]
  refine ⟨?_, .inl⟩
  rintro (before | now)
  · exact before
  · exact ⟨last, by simp, still.eq now⟩

private theorem leave (settled : Settled true offered accepted (front ++ [last]))
    (repeated : last.offset = entry.offset) (later : last.column.timestamp < entry.column.timestamp) :
    Settled true (offered ++ [entry]) (accepted ++ [entry]) (front ++ [last]) := by
  obtain ⟨still, climbed⟩ := highest_repeat settled repeated
  have increasing := settled.increasing
  refine ⟨⟨by simp, increasing, fun offset => (climbed offset).symm, ?_⟩, ?_, ?_, by simp⟩
  · intro other member
    refine (settled.earliest other member).concat ?_
    intro same
    rcases List.mem_append.mp member with earlier | isLast
    · have below := (List.pairwise_append.mp increasing).2.2 other earlier last (by simp)
      omega
    · rw [List.mem_singleton.mp isLast]
      exact later
  · exact List.append_subset.mpr ⟨fun _ member => List.mem_append_left _ (settled.within member), by simp⟩
  · intro other member
    rw [List.getLast?_concat] at member
    cases member
    exact still

private theorem replace (settled : Settled true offered accepted (front ++ [last]))
    (repeated : last.offset = entry.offset) (notLater : entry.column.timestamp ≤ last.column.timestamp) :
    Settled true (offered ++ [entry]) (accepted ++ [entry]) (front ++ [entry]) := by
  obtain ⟨still, climbed⟩ := highest_repeat settled repeated
  obtain ⟨frontIncreasing, _, below⟩ := List.pairwise_append.mp settled.increasing
  refine ⟨⟨by simp, ?_, ?_, ?_⟩, ?_, ?_, by simp⟩
  · refine List.pairwise_append.mpr ⟨frontIncreasing, List.pairwise_singleton _ _, ?_⟩
    intro other member new same
    rw [List.mem_singleton.mp same, ← repeated]
    exact below other member last (by simp)
  · intro offset
    rw [climbed offset]
    simp only [List.mem_append, List.mem_singleton, or_and_right, exists_or, exists_eq_left, repeated]
  · intro other member
    rcases List.mem_append.mp member with earlier | new
    · refine (settled.earliest other (List.mem_append_left _ earlier)).concat ?_
      intro same
      have less := below other earlier last (by simp)
      omega
    · rw [List.mem_singleton.mp new]
      apply earliest_concat_self
      intro another present same
      have least := (settled.earliest last (by simp)).le present (same.trans repeated.symm)
      exact UInt64.le_trans notLater least
  · exact List.append_subset.mpr ⟨fun _ member => List.mem_append_left _ (settled.within member), by simp⟩
  · intro other member
    rw [List.getLast?_concat] at member
    cases member
    rwa [← repeated]

end Repeat

theorem keep (settled : Settled fixDuplicates offered accepted stored) (admitted : Admits fixDuplicates stored entry) :
    Settled fixDuplicates (offered ++ [entry]) (accepted ++ [entry]) (record stored entry) := by
  rcases List.eq_nil_or_concat stored with rfl | ⟨front, last, rfl⟩
  · exact settled.climb (by simp)
  · rw [List.concat_eq_append] at settled admitted ⊢
    rw [record_concat]
    split
    · next greater => exact settled.climb (by simpa using greater)
    · next notGreater =>
      obtain ⟨rfl, repeated⟩ := (admits_concat.mp admitted).resolve_left notGreater
      split
      · next later => exact settled.leave repeated later
      · next notLater => exact settled.replace repeated (UInt64.not_lt.mp notLater)

theorem judged (settled : Settled fixDuplicates offered accepted stored) {kind : StreamKind}
    {result : Except Error Unit} (admitted : Admits fixDuplicates stored entry → result = .ok ())
    (refused : ¬ Admits fixDuplicates stored entry →
      ∃ last ∈ stored.getLast?, result = .error (.append (.outOfOrder kind entry.offset last.offset))) :
    Judged fixDuplicates kind offered entry result := by
  constructor
  · rw [← settled.admits_iff]
    refine ⟨?_, admitted⟩
    intro succeeded
    by_contra rejected
    obtain ⟨last, _, failed⟩ := refused rejected
    rw [succeeded] at failed
    cases failed
  · intro failed
    obtain ⟨last, member, same⟩ := refused (mt admitted failed)
    exact ⟨last.offset, settled.top last member, same⟩

end Settled

end Ledger

namespace Selection

variable {selection : Selection} {kind : StreamKind} {column : Column} {entry : Entry}

/-- The entries that the given columns make in one stream. -/
def entries (selection : Selection) (kind : StreamKind) (columns : List Column) : List Entry :=
  columns.filterMap fun column =>
    match selection.entry column with
    | .ok (stream, entry) => if stream = kind then some entry else none
    | .error _ => none

theorem entries_concat (columns : List Column) (made : selection.entry column = .ok (kind, entry)) :
    selection.entries kind (columns ++ [column]) = selection.entries kind columns ++ [entry] := by
  simp only [entries, List.filterMap_append, List.filterMap_cons, List.filterMap_nil, made, if_true]

theorem entries_concat_other (columns : List Column) {other : StreamKind} (different : kind ≠ other)
    (made : selection.entry column = .ok (kind, entry)) :
    selection.entries other (columns ++ [column]) = selection.entries other columns := by
  simp only [entries, List.filterMap_append, List.filterMap_cons, List.filterMap_nil, made, different, if_false,
    List.append_nil]

end Selection

namespace RowBuilder
open Ledger

/-- The columns are all of one row: the builder's, or that of the first of them while the builder has no key. -/
def Hosts (builder : RowBuilder) (columns : List Column) : Prop :=
  ∃ key : RowKey, (∀ first ∈ columns.head?, builder.Belongs key first) ∧
    ∀ column ∈ columns, key.matchesRow column.rowKey = true

def pushes (entries : List Entry) : List Feed := entries.map fun entry => .push entry.column

/-- A builder that has accepted the given columns and was offered the given entries in one of its streams. -/
structure Tracks (start : RowBuilder) (kind : StreamKind) (offered : List Entry) (columns : List Column)
    (builder : RowBuilder) : Prop where
  holds : Holds start columns builder
  settled : Settled start.fixDuplicates offered (start.selection.entries kind columns)
    (start.selection.ledger kind columns)

variable {query : Query} {settings : Settings} {start builder : RowBuilder} {kind : StreamKind}
  {offered : List Entry} {columns : List Column}

theorem feedAll_tracks (created : create query settings = .ok start) (kind : StreamKind) (feeds : List Feed) :
    Tracks start kind (start.selection.entries kind (start.accepted feeds)) (start.accepted feeds)
      (start.feedAll feeds) := by
  refine @feedAll_induction
    (fun columns builder => Tracks start kind (start.selection.entries kind columns) columns builder) start
    ⟨create_holds created, .nil _⟩ ?_ ?_ feeds
  · intro columns builder column key tracks _ _
    exact ⟨tracks.holds.rekey key, tracks.settled⟩
  · intro columns builder column key after tracks _ _ appended
    refine ⟨tracks.holds.append appended, ?_⟩
    obtain ⟨stream, entry, made, admitted⟩ := tracks.holds.admitted appended
    by_cases same : stream = kind
    · subst stream
      rw [Selection.entries_concat columns made, Selection.ledger_concat columns made]
      exact tracks.settled.keep admitted
    · rw [Selection.entries_concat_other columns same made, Selection.ledger_concat_other columns same made]
      exact tracks.settled

private theorem key?_setStream (builder : RowBuilder) (kind : StreamKind) (stream : StreamBuilder) :
    (builder.setStream kind stream).key? = builder.key? := by
  cases kind <;> rfl

/-- Pushing one more entry: what is said to it, and what is then stored. -/
private theorem Tracks.push {entry : Entry} {key : RowKey} (tracks : Tracks start kind offered columns builder)
    (made : start.selection.entry entry.column = .ok (kind, entry)) (belongs : builder.Belongs key entry.column) :
    Judged start.fixDuplicates kind offered entry (builder.push entry.column).1 ∧
      (builder.push entry.column).2.key? = some key ∧
      Tracks start kind (offered ++ [entry]) (columns ++ builder.accepted [.push entry.column])
        (builder.push entry.column).2 := by
  have keyed := tracks.holds.rekey key
  by_cases admitted : Admits start.fixDuplicates (start.selection.ledger kind columns) entry
  · have appended := keyed.append_of_admits made admitted
    have pushed := (push_of_belongs belongs).trans appended
    refine ⟨?_, ?_, ?_⟩
    · rw [pushed]
      exact tracks.settled.judged (fun _ => rfl) (fun refused => absurd admitted refused)
    · rw [pushed]
      exact key?_setStream _ _ _
    · have taken : builder.accepted [.push entry.column] = [entry.column] := by
        simp only [accepted, RowBuilder.feed, pushed, Feed.column]
      rw [taken, pushed]
      refine ⟨keyed.append appended, ?_⟩
      rw [Selection.entries_concat columns made, Selection.ledger_concat columns made]
      exact tracks.settled.keep admitted
  · obtain ⟨last, member, failed⟩ := keyed.append_of_not_admits made admitted
    have pushed := (push_of_belongs belongs).trans failed
    refine ⟨?_, ?_, ?_⟩
    · rw [pushed]
      exact tracks.settled.judged (fun isAdmitted => absurd isAdmitted admitted) (fun _ => ⟨last, member, rfl⟩)
    · rw [pushed]
    · have untaken : builder.accepted [.push entry.column] = [] := by
        simp only [accepted, RowBuilder.feed, pushed]
      rw [untaken, pushed, List.append_nil]
      exact ⟨keyed, tracks.settled.refuse admitted⟩

private theorem Tracks.pushAll {entries : List Entry} (tracks : Tracks start kind offered columns builder)
    (routed : ∀ entry ∈ entries, start.selection.entry entry.column = .ok (kind, entry))
    (hosts : builder.Hosts (entries.map Entry.column)) :
    (∀ earlier entry later, entries = earlier ++ entry :: later →
      Judged start.fixDuplicates kind (offered ++ earlier) entry
        ((builder.feedAll (pushes earlier)).push entry.column).1) ∧
      Tracks start kind (offered ++ entries) (columns ++ builder.accepted (pushes entries))
        (builder.feedAll (pushes entries)) := by
  induction entries generalizing builder offered columns with
  | nil =>
    refine ⟨?_, by simpa [pushes, accepted, feedAll] using tracks⟩
    intro earlier entry later shape
    simp at shape
  | cons first entries ih =>
    obtain ⟨key, belongs, matched⟩ := hosts
    obtain ⟨judged, held, pushed⟩ := tracks.push (routed first (by simp)) (belongs first.column rfl)
    have matchedRest : ∀ column ∈ entries.map Entry.column, key.matchesRow column.rowKey = true :=
      fun column member => matched column (List.mem_cons_of_mem _ member)
    obtain ⟨judgedRest, tracked⟩ := ih pushed (fun entry member => routed entry (List.mem_cons_of_mem _ member))
      ⟨key, fun column member => .inr ⟨held, matchedRest column (List.mem_of_mem_head? member)⟩, matchedRest⟩
    refine ⟨?_, ?_⟩
    · intro earlier entry later shape
      cases earlier with
      | nil =>
        cases shape
        rw [List.append_nil]
        exact judged
      | cons other earlier =>
        cases shape
        have rest := judgedRest earlier entry later rfl
        rwa [List.append_assoc, List.singleton_append] at rest
    · have taken : builder.accepted (pushes (first :: entries)) =
          builder.accepted [.push first.column] ++ (builder.push first.column).2.accepted (pushes entries) :=
        builder.accepted_append [.push first.column] (pushes entries)
      rw [List.append_assoc, List.singleton_append, List.append_assoc] at tracked
      rw [taken]
      exact tracked

/-- Columns of one row that make entries of one stream are judged by the highest offset that the stream was offered,
and the stream keeps of them what it should. This holds from any point of a run on; entries that the stream took
before that point count as offered. -/
theorem push_settles (created : create query settings = .ok start) (feeds : List Feed) {entries : List Entry}
    (routed : ∀ entry ∈ entries, start.selection.entry entry.column = .ok (kind, entry))
    (hosts : (start.feedAll feeds).Hosts (entries.map Entry.column)) :
    (∀ earlier entry later, entries = earlier ++ entry :: later →
      Judged start.fixDuplicates kind (start.selection.entries kind (start.accepted feeds) ++ earlier) entry
        ((start.feedAll (feeds ++ pushes earlier)).push entry.column).1) ∧
      ∃ stored, ((start.feedAll (feeds ++ pushes entries)).stream kind).Represents stored ∧
        Keeps start.fixDuplicates (start.selection.entries kind (start.accepted feeds) ++ entries)
          (start.selection.entries kind (start.accepted (feeds ++ pushes entries))) stored := by
  obtain ⟨judged, tracks⟩ := (feedAll_tracks created kind feeds).pushAll routed hosts
  simp only [feedAll_append, accepted_append]
  refine ⟨judged, _, ?_, tracks.settled.toKeeps⟩
  rw [tracks.holds.stream kind]
  exact StreamBuilder.holding_represents (tracks.holds.increasing kind)

/-! Columns that repeat the offset 3: one written earlier in two bytes, one written at the same time as that, and one
written later. A column between them falls back to the offset 2. -/

def repeatedStart : RowBuilder := { Gappy.start with fixDuplicates := true }

def repeatedFall : Entry := ⟨⟨Gappy.rowKey, [0, 0, 32], [9], 1⟩, ⟨32⟩, rfl⟩

def repeatedFront : List Entry :=
  [⟨⟨Gappy.rowKey, [0, 0, 48], [7], 5⟩, ⟨48⟩, rfl⟩, ⟨⟨Gappy.rowKey, [0, 0, 49], [1, 0], 4⟩, ⟨49⟩, rfl⟩]

def repeatedBack : List Entry :=
  [⟨⟨Gappy.rowKey, [0, 0, 48], [8], 4⟩, ⟨48⟩, rfl⟩, ⟨⟨Gappy.rowKey, [0, 0, 48], [6], 9⟩, ⟨48⟩, rfl⟩,
    ⟨⟨Gappy.rowKey, [0, 0, 80], [5], 2⟩, ⟨80⟩, rfl⟩]

theorem push_settles_repeated :
    create Gappy.query { Settings.default with fixDuplicates := true } = .ok repeatedStart ∧
      (∀ entry ∈ repeatedFront ++ repeatedFall :: repeatedBack,
        repeatedStart.selection.entry entry.column = .ok (.value, entry)) ∧
      (repeatedStart.feedAll [.push ⟨Gappy.rowKey, [1, 0, 80], [6], 1⟩]).Hosts
        ((repeatedFront ++ repeatedFall :: repeatedBack).map Entry.column) ∧
      Judged true .value repeatedFront repeatedFall (.error (.append (.outOfOrder .value 2 3))) ∧
      ∃ stored, StreamBuilder.Represents ⟨⟨[0, 48, 0, 80], [8, 5]⟩, some 5, 2⟩ stored ∧
        Keeps true (repeatedFront ++ repeatedFall :: repeatedBack) (repeatedFront ++ repeatedBack) stored := by
  have created : create Gappy.query { Settings.default with fixDuplicates := true } = .ok repeatedStart := rfl
  have routed : ∀ entry ∈ repeatedFront ++ repeatedFall :: repeatedBack,
      repeatedStart.selection.entry entry.column = .ok (.value, entry) := by
    intro entry member
    simp only [repeatedFront, repeatedBack, List.cons_append, List.nil_append, List.mem_cons, List.not_mem_nil,
      or_false] at member
    rcases member with rfl | rfl | rfl | rfl | rfl | rfl <;> rfl
  have hosts : (repeatedStart.feedAll [.push ⟨Gappy.rowKey, [1, 0, 80], [6], 1⟩]).Hosts
      ((repeatedFront ++ repeatedFall :: repeatedBack).map Entry.column) := by
    refine ⟨Gappy.row.key, ?_, by decide⟩
    intro first member
    cases member
    exact .inr ⟨rfl, rfl⟩
  obtain ⟨judged, stored, represents, keeps⟩ := push_settles created _ routed hosts
  exact ⟨created, routed, hosts, judged repeatedFront repeatedFall repeatedBack rfl, stored, represents, keeps⟩

end RowBuilder

end Rollup
