import Mathlib.Data.Finset.Dedup
import Mathlib.Data.Finset.Card
import Rollup.Proofs.Traversal

/-! The cells that a cursor steps over to line its streams up, over a whole run. The cursor remembers one mark for
each stream, so it counts a cell only if it steps over it before any later cell of the same stream. -/

namespace Rollup

/-- For each stream where the fields of the cells start that were stepped over, in that order. -/
abbrev History := StreamKind → List Nat

namespace History

def nil : History := fun _ => []

def join (first second : History) : History := fun kind => first kind ++ second kind

def push (history : History) (kind : StreamKind) (start : Nat) : History :=
  fun other => if other = kind then history other ++ [start] else history other

/-- No later cell of the stream was stepped over before this one was for the first time. -/
def InOrder (starts : List Nat) (start : Nat) : Prop := ∀ other ∈ starts.takeWhile (· ≠ start), other < start

instance (starts : List Nat) : DecidablePred (InOrder starts) := fun start =>
  inferInstanceAs (Decidable (∀ other ∈ starts.takeWhile (· ≠ start), other < start))

/-- The distinct cells of one stream that were stepped over before any later one. -/
def leading (starts : List Nat) : Nat := (starts.toFinset.filter (InOrder starts)).card

def inOrder (history : History) : Nat := leading (history .value) + leading (history .count)

/-- The number of distinct cells, over both streams. -/
def distinct (history : History) : Nat := (history .value).toFinset.card + (history .count).toFinset.card

@[simp] theorem join_nil (history : History) : history.join nil = history := by
  funext kind
  exact List.append_nil _

theorem join_assoc (first second third : History) :
    (first.join second).join third = first.join (second.join third) := by
  funext kind
  exact List.append_assoc _ _ _

section InOrder
variable {starts : List Nat} {start : Nat}

private theorem takeWhile_first {front : List Nat} (absent : start ∉ front) (back : List Nat) :
    (front ++ start :: back).takeWhile (· ≠ start) = front := by
  have passes : ∀ other ∈ front, (decide (other ≠ start)) = true := by
    intro other member
    exact decide_eq_true fun same => absent (same ▸ member)
  rw [List.takeWhile_append_of_pos passes, List.takeWhile_cons, if_neg (by simp), List.append_nil]

/-- What is stepped over later changes nothing for a cell that was stepped over before. -/
theorem inOrder_append_iff (member : start ∈ starts) (more : List Nat) :
    InOrder (starts ++ more) start ↔ InOrder starts start := by
  obtain ⟨front, back, rfl, absent⟩ := List.eq_append_cons_of_mem member
  rw [InOrder, InOrder, List.append_assoc, List.cons_append, takeWhile_first absent, takeWhile_first absent]

theorem inOrder_concat_iff (absent : start ∉ starts) (more : List Nat) :
    InOrder (starts ++ start :: more) start ↔ ∀ other ∈ starts, other < start := by
  rw [InOrder, takeWhile_first absent]

theorem inOrder_append_of_increasing {more : List Nat} (increasing : more.Pairwise (· < ·)) (member : start ∈ more)
    (above : ∀ other ∈ starts, other < start) : InOrder (starts ++ more) start := by
  obtain ⟨front, back, rfl⟩ := List.append_of_mem member
  obtain ⟨_, _, across⟩ := List.pairwise_append.mp increasing
  have below : ∀ other ∈ starts ++ front, other < start := by
    intro other earlier
    rcases List.mem_append.mp earlier with earlier | earlier
    · exact above other earlier
    · exact across other earlier start List.mem_cons_self
  rw [← List.append_assoc]
  exact (inOrder_concat_iff (fun present => Nat.lt_irrefl _ (below start present)) back).mpr below

private theorem filter_concat (starts : List Nat) (start : Nat) :
    (starts ++ [start]).toFinset.filter (InOrder (starts ++ [start])) =
      if InOrder (starts ++ [start]) start then insert start (starts.toFinset.filter (InOrder starts))
      else starts.toFinset.filter (InOrder starts) := by
  have earlier : starts.toFinset.filter (InOrder (starts ++ [start])) = starts.toFinset.filter (InOrder starts) :=
    Finset.filter_congr fun other member => inOrder_append_iff (List.mem_toFinset.mp member) _
  have whole : (starts ++ [start]).toFinset = insert start starts.toFinset := by
    ext other
    simp
  rw [whole, Finset.filter_insert, earlier]

theorem leading_concat_of_above (above : ∀ other ∈ starts, other < start) :
    leading (starts ++ [start]) = leading starts + 1 := by
  have absent : start ∉ starts := fun member => Nat.lt_irrefl _ (above start member)
  rw [leading, filter_concat, if_pos ((inOrder_concat_iff absent []).mpr above),
    Finset.card_insert_of_notMem (by simp [absent]), leading]

theorem leading_concat_of_below {later : Nat} (member : later ∈ starts) (below : start ≤ later) :
    leading (starts ++ [start]) = leading starts := by
  rw [leading, filter_concat]
  split
  · next ordered =>
    have present : start ∈ starts := by
      by_contra absent
      have less := (inOrder_concat_iff absent []).mp ordered later member
      omega
    have counted := (inOrder_append_iff present [start]).mp ordered
    rw [Finset.insert_eq_of_mem (Finset.mem_filter.mpr ⟨List.mem_toFinset.mpr present, counted⟩), leading]
  · rfl

end InOrder

section Push
variable {history : History} {kind : StreamKind} {start : Nat}

@[simp] theorem push_self (history : History) (kind : StreamKind) (start : Nat) :
    history.push kind start kind = history kind ++ [start] := if_pos rfl

theorem push_other {other : StreamKind} (different : other ≠ kind) (history : History) (start : Nat) :
    history.push kind start other = history other := if_neg different

theorem inOrder_push_of_above (above : ∀ other ∈ history kind, other < start) :
    (history.push kind start).inOrder = history.inOrder + 1 := by
  have more := leading_concat_of_above above
  cases kind <;> simp only [inOrder, push, reduceCtorEq, if_true, if_false, more] <;> omega

theorem inOrder_push_of_below {later : Nat} (member : later ∈ history kind) (below : start ≤ later) :
    (history.push kind start).inOrder = history.inOrder := by
  have same := leading_concat_of_below member below
  cases kind <;> simp only [inOrder, push, reduceCtorEq, if_true, if_false, same]

end Push

theorem inOrder_le_distinct (history : History) : history.inOrder ≤ history.distinct :=
  Nat.add_le_add (Finset.card_filter_le _ _) (Finset.card_filter_le _ _)

theorem leading_eq_card_iff (starts : List Nat) :
    leading starts = starts.toFinset.card ↔ ∀ start ∈ starts, InOrder starts start := by
  rw [leading, Finset.card_filter_eq_iff]
  simp only [List.mem_toFinset]

/-- Every cell is counted just when none was stepped over for the first time after a later one. -/
theorem inOrder_eq_distinct_iff (history : History) :
    history.inOrder = history.distinct ↔ ∀ kind, ∀ start ∈ history kind, InOrder (history kind) start := by
  have values := Finset.card_filter_le (history .value).toFinset (InOrder (history .value))
  have counts := Finset.card_filter_le (history .count).toFinset (InOrder (history .count))
  have valuesIff := leading_eq_card_iff (history .value)
  have countsIff := leading_eq_card_iff (history .count)
  constructor
  · intro same kind
    unfold inOrder distinct at same
    cases kind with
    | value => exact valuesIff.mp (by unfold leading at same ⊢; omega)
    | count => exact countsIff.mp (by unfold leading at same ⊢; omega)
  · intro ordered
    rw [inOrder, distinct, valuesIff.mpr (ordered .value), countsIff.mpr (ordered .count)]

end History

namespace Cursor

def position (cursor : Cursor) : StreamKind → Position
  | .value => cursor.values
  | .count => cursor.counts

def mark (cursor : Cursor) : StreamKind → Nat
  | .value => cursor.valueMark
  | .count => cursor.countMark

def skip (cursor : Cursor) (kind : StreamKind) (field : Field) : Cursor :=
  match kind with
  | .value => cursor.skipValue field
  | .count => cursor.skipCount field

/-- Where the fields between two positions start. -/
def between (first last : Position) : List Nat :=
  List.range' first.field ((last.field - first.field) / Field.size) Field.size

/-- The cells that a cursor steps over to line the streams up. -/
def stepped (row : Row) (cursor : Cursor) : History :=
  fun kind => between (cursor.position kind) ((cursor.sync row).position kind)

/-- The cells that are stepped over on the way to a timestamp. -/
def steppedBefore (row : Row) (target : UInt64) (cursor : Cursor) : History :=
  let synced := cursor.sync row
  (cursor.stepped row).join <|
    match if synced.ready row then row.values.fieldAt? synced.values.field else none with
    | none => .nil
    | some field =>
      if row.timestamp field.offset < target then
        match _taken : cursor.next row with
        | (none, _) => .nil
        | (some _, after) => steppedBefore row target after
      else .nil
termination_by row.values.fields.length - cursor.values.field
decreasing_by
  have bounds := next_values ‹cursor.next row = _›
  omega

/-- The cursor back before the first cells, with the cells it counted. -/
def rewound (cursor : Cursor) : Cursor :=
  { skipped := cursor.skipped, valueMark := cursor.valueMark, countMark := cursor.countMark }

/-- The cells that one operation steps over. -/
def steppedBy (row : Row) (cursor : Cursor) : Operation → History
  | .next | .hasNext | .peek => cursor.stepped row
  | .seek timestamp => cursor.rewound.steppedBefore row (Timestamp.normalize timestamp row.resolution)
  | .save | .restore _ => .nil

/-- A new cursor after a run of operations, and the cells that it has stepped over since it was made. -/
def run (row : Row) (operations : List Operation) : Cursor × History :=
  operations.foldl
    (fun state operation => ((state.1.perform row operation).2, state.2.join (state.1.steppedBy row operation)))
    (.start row, stepped row {})

theorem run_concat (row : Row) (operations : List Operation) (operation : Operation) :
    run row (operations ++ [operation]) =
      (((run row operations).1.perform row operation).2,
        (run row operations).2.join ((run row operations).1.steppedBy row operation)) := by
  simp only [run, List.foldl_append, List.foldl_cons, List.foldl_nil]

@[simp] theorem between_self (position : Position) : between position position = [] := by
  simp only [between, Nat.sub_self, Nat.zero_div, List.range'_zero]

theorem between_past {first last : Position} {field : Field} (ahead : (first.past field).field ≤ last.field) :
    between first last = first.field :: between (first.past field) last := by
  have more : (last.field - first.field) / Field.size =
      (last.field - (first.past field).field) / Field.size + 1 := by
    simp only [Position.past, Field.size] at ahead ⊢
    omega
  rw [between, more, List.range'_succ, between]
  rfl

theorem mem_between_iff {first last : Position} {start : Nat} (firstAligned : first.field % Field.size = 0)
    (lastAligned : last.field % Field.size = 0) :
    start ∈ between first last ↔ start % Field.size = 0 ∧ first.field ≤ start ∧ start < last.field := by
  unfold between Field.size at *
  rw [List.mem_range']
  constructor
  · rintro ⟨index, inside, rfl⟩
    omega
  · rintro ⟨aligned, above, below⟩
    exact ⟨(start - first.field) / 2, by omega, by omega⟩

theorem between_increasing (first last : Position) : (between first last).Pairwise (· < ·) :=
  List.pairwise_lt_range' Field.size (by decide)

section Skip

@[simp] theorem position_skip_self (cursor : Cursor) (kind : StreamKind) (field : Field) :
    (cursor.skip kind field).position kind = (cursor.position kind).past field := by
  cases kind <;> rfl

theorem position_skip_other {kind other : StreamKind} (different : other ≠ kind) (cursor : Cursor) (field : Field) :
    (cursor.skip kind field).position other = cursor.position other := by
  cases kind <;> cases other <;> first | rfl | exact absurd rfl different

theorem mark_skip_self (cursor : Cursor) (kind : StreamKind) (field : Field) :
    (cursor.skip kind field).mark kind =
      if cursor.mark kind ≤ (cursor.position kind).field then (cursor.position kind).field + Field.size
      else cursor.mark kind := by
  cases kind <;> simp only [skip, skipValue, skipCount, mark, position, decide_eq_true_eq] <;> congr

theorem mark_skip_other {kind other : StreamKind} (different : other ≠ kind) (cursor : Cursor) (field : Field) :
    (cursor.skip kind field).mark other = cursor.mark other := by
  cases kind <;> cases other <;> first | rfl | exact absurd rfl different

theorem skipped_skip (cursor : Cursor) (kind : StreamKind) (field : Field) :
    (cursor.skip kind field).skipped =
      if cursor.mark kind ≤ (cursor.position kind).field then cursor.skipped + 1 else cursor.skipped := by
  cases kind <;> simp only [skip, skipValue, skipCount, mark, position, decide_eq_true_eq] <;> congr

end Skip

theorem align_position_le (values counts : CellStream) (cursor : Cursor) (kind : StreamKind) :
    (cursor.position kind).field ≤ ((cursor.align values counts).position kind).field := by
  fun_induction align values counts cursor with
  | case1 => exact Nat.le_refl _
  | case2 cursor value _ count _ _ _ ih =>
    refine Nat.le_trans ?_ ih
    cases kind <;> simp [position, skipCount, Position.past]
  | case3 cursor value _ count _ _ _ ih =>
    refine Nat.le_trans ?_ ih
    cases kind <;> simp [position, skipValue, Position.past]
  | case4 => exact Nat.le_refl _

theorem countsBeside_aligned (row : Row) (field : Nat) : (countsBeside row field).field % Field.size = 0 := by
  unfold countsBeside
  simp only
  split
  · rw [Position.field_after]
    exact Nat.mul_mod_right _ _
  · rfl

/-- What lining the streams up and reading a point preserve, the way to a timestamp preserves. -/
theorem skipBefore_induction {row : Row} {target : UInt64} {motive : History → Cursor → Prop}
    (sync : ∀ history cursor, motive history cursor → motive (history.join (cursor.stepped row)) (cursor.sync row))
    (next : ∀ history cursor, motive history cursor → motive (history.join (cursor.stepped row)) (cursor.next row).2)
    {history : History} {cursor : Cursor} (init : motive history cursor) :
    motive (history.join (cursor.steppedBefore row target)) (cursor.skipBefore row target) := by
  fun_induction steppedBefore row target cursor generalizing history with
  | case1 cursor synced =>
    rename_i ih
    have stopped := sync history cursor init
    have read := next history cursor init
    rw [Cursor.skipBefore, ← History.join_assoc]
    simp only [synced]
    generalize (if (cursor.sync row).ready row then row.values.fieldAt? (cursor.sync row).values.field else none) =
      ahead
    cases ahead with
    | none => rwa [History.join_nil]
    | some field =>
      by_cases early : row.timestamp field.offset < target
      · simp only [if_pos early]
        generalize taken : cursor.next row = result at read ih
        obtain ⟨_ | point, after⟩ := result
        · rwa [History.join_nil]
        · exact ih point after rfl read
      · simp only [if_neg early]
        rwa [History.join_nil]

/-- The mark of each stream is past its cells that were stepped over, and the cells counted are those that the mark
could not hide. -/
structure Tallied (history : History) (cursor : Cursor) : Prop where
  aligned : ∀ kind, (cursor.position kind).field % Field.size = 0
  starts : ∀ kind, ∀ start ∈ history kind, start % Field.size = 0 ∧ start < cursor.mark kind
  marked : ∀ kind, cursor.mark kind = 0 ∨ ∃ start ∈ history kind, cursor.mark kind = start + Field.size
  skipped : cursor.skipped = history.inOrder

namespace Tallied

variable {row : Row} {history : History} {cursor : Cursor}

theorem fresh : Tallied .nil {} := by
  refine ⟨?_, ?_, ?_, rfl⟩
  · intro kind
    cases kind <;> rfl
  · intro kind start member
    cases member
  · intro kind
    cases kind <;> exact .inl rfl

/-- Only positions that stay at the starts of fields matter, and what was counted. -/
theorem moved {other : Cursor} (tallied : Tallied history cursor)
    (aligned : ∀ kind, (other.position kind).field % Field.size = 0)
    (marks : ∀ kind, other.mark kind = cursor.mark kind) (skipped : other.skipped = cursor.skipped) :
    Tallied history other := by
  refine ⟨aligned, ?_, ?_, skipped.trans tallied.skipped⟩
  · intro kind
    rw [marks kind]
    exact tallied.starts kind
  · intro kind
    rw [marks kind]
    exact tallied.marked kind

/-- A cell is counted when its stream's mark does not hide it. -/
theorem fresh_iff (tallied : Tallied history cursor) (kind : StreamKind) :
    cursor.mark kind ≤ (cursor.position kind).field ↔ ∀ start ∈ history kind, start < (cursor.position kind).field := by
  have aligned := tallied.aligned kind
  constructor
  · intro visible start member
    have below := (tallied.starts kind start member).2
    omega
  · intro above
    rcases tallied.marked kind with unset | ⟨start, member, marked⟩
    · omega
    · have less := above start member
      have even := (tallied.starts kind start member).1
      unfold Field.size at *
      omega

/-- Stepping over one cell. -/
theorem skip (tallied : Tallied history cursor) (kind : StreamKind) (field : Field) :
    Tallied (history.push kind (cursor.position kind).field) (cursor.skip kind field) := by
  have visible := tallied.fresh_iff kind
  have aligned := tallied.aligned kind
  refine ⟨?_, ?_, ?_, ?_⟩
  · intro other
    by_cases same : other = kind
    · subst other
      rw [position_skip_self]
      simpa [Position.past, Nat.add_mod_right] using aligned
    · rw [position_skip_other same]
      exact tallied.aligned other
  · intro other start member
    by_cases same : other = kind
    · subst other
      rw [History.push_self] at member
      rw [mark_skip_self]
      rcases List.mem_append.mp member with earlier | new
      · obtain ⟨even, below⟩ := tallied.starts kind start earlier
        refine ⟨even, ?_⟩
        split
        · next shown => exact Nat.lt_add_right _ (visible.mp shown start earlier)
        · exact below
      · rw [List.mem_singleton.mp new]
        refine ⟨aligned, ?_⟩
        split
        · exact Nat.lt_add_of_pos_right (by decide)
        · next hidden => exact Nat.lt_of_not_le hidden
    · rw [History.push_other same] at member
      rw [mark_skip_other same]
      exact tallied.starts other start member
  · intro other
    by_cases same : other = kind
    · subst other
      rw [mark_skip_self, History.push_self]
      split
      · exact .inr ⟨_, by simp, rfl⟩
      · rcases tallied.marked kind with unset | ⟨start, member, marked⟩
        · exact .inl unset
        · exact .inr ⟨start, List.mem_append_left _ member, marked⟩
    · rw [mark_skip_other same, History.push_other same]
      exact tallied.marked other
  · rw [skipped_skip]
    split
    · next shown => rw [History.inOrder_push_of_above (visible.mp shown), tallied.skipped]
    · next hidden =>
      obtain ⟨later, member, below⟩ : ∃ later ∈ history kind, (cursor.position kind).field ≤ later := by
        by_contra none
        refine hidden (visible.mpr fun start member => Nat.lt_of_not_le fun below => none ⟨start, member, below⟩)
      rw [History.inOrder_push_of_below member below, tallied.skipped]

private theorem join_between_self (history : History) (cursor : Cursor) :
    (history.join fun kind => between (cursor.position kind) (cursor.position kind)) = history := by
  simp only [between_self]
  exact history.join_nil

private theorem push_join_between (history : History) {last : Cursor} {kind : StreamKind} {field : Field}
    (ahead : ((cursor.skip kind field).position kind).field ≤ (last.position kind).field) :
    ((history.push kind (cursor.position kind).field).join fun other =>
        between ((cursor.skip kind field).position other) (last.position other)) =
      history.join fun other => between (cursor.position other) (last.position other) := by
  funext other
  by_cases same : other = kind
  · subst other
    rw [position_skip_self] at ahead
    simp only [History.join, History.push_self, position_skip_self, between_past ahead, List.append_assoc,
      List.singleton_append]
  · simp only [History.join, History.push_other same, position_skip_other same]

theorem align (tallied : Tallied history cursor) (values counts : CellStream) :
    Tallied
      (history.join fun kind => between (cursor.position kind) ((cursor.align values counts).position kind))
      (cursor.align values counts) := by
  fun_induction Cursor.align values counts cursor generalizing history with
  | case1 | case4 =>
    rw [join_between_self]
    exact tallied
  | case2 cursor value count _ _ _ _ ih =>
    rw [show cursor.skipCount count = cursor.skip .count count from rfl] at ih ⊢
    rw [← push_join_between history (align_position_le values counts (cursor.skip .count count) .count)]
    exact ih (tallied.skip .count count)
  | case3 cursor value count _ _ _ _ ih =>
    rw [show cursor.skipValue value = cursor.skip .value value from rfl] at ih ⊢
    rw [← push_join_between history (align_position_le values counts (cursor.skip .value value) .value)]
    exact ih (tallied.skip .value value)

theorem sync (tallied : Tallied history cursor) (row : Row) :
    Tallied (history.join (cursor.stepped row)) (cursor.sync row) := by
  unfold stepped Cursor.sync
  split
  · rw [join_between_self]
    exact tallied
  · exact tallied.align _ _

private theorem takeCount (tallied : Tallied history cursor) (row : Row) :
    (cursor.takeCount row).2.field % Field.size = 0 := by
  have aligned := tallied.aligned .count
  unfold Cursor.takeCount
  split
  · exact aligned
  · split
    · exact aligned
    · simpa [Position.past, Nat.add_mod_right, position] using aligned

theorem take? {after : Cursor} {point : Point} (tallied : Tallied history cursor)
    (taken : cursor.take? row = some (point, after)) : Tallied history after := by
  have values := tallied.aligned .value
  have counts := tallied.takeCount row
  unfold Cursor.take? at taken
  split at taken
  · cases taken
  · split at taken
    · cases taken
    · cases taken
      refine tallied.moved ?_ (fun kind => by cases kind <;> rfl) rfl
      intro kind
      cases kind with
      | value => simpa [position, Position.past, Nat.add_mod_right] using values
      | count => exact counts

theorem next (tallied : Tallied history cursor) (row : Row) :
    Tallied (history.join (cursor.stepped row)) (cursor.next row).2 := by
  have synced := tallied.sync row
  unfold Cursor.next
  simp only
  split
  · next found =>
    split at found
    · exact synced.take? found
    · cases found
  · exact synced

theorem skipBefore (tallied : Tallied history cursor) (row : Row) (target : UInt64) :
    Tallied (history.join (cursor.steppedBefore row target)) (cursor.skipBefore row target) :=
  skipBefore_induction (fun _ _ before => before.sync row) (fun _ _ before => before.next row) tallied

theorem seek (tallied : Tallied history cursor) (row : Row) (timestamp : UInt64) :
    Tallied (history.join (cursor.steppedBy row (.seek timestamp))) (cursor.seek row timestamp) := by
  have rewound : Tallied history cursor.rewound := tallied.moved fresh.aligned (fun kind => by cases kind <;> rfl) rfl
  have reached := rewound.skipBefore row (Timestamp.normalize timestamp row.resolution)
  refine reached.moved ?_ (fun kind => by cases kind <;> rfl) rfl
  intro kind
  cases kind with
  | value => exact reached.aligned .value
  | count => exact reached.aligned .count

theorem restore (tallied : Tallied history cursor) (row : Row) (token : UInt64) :
    Tallied history (cursor.restore row token).2 := by
  have restored := restore_restored row token cursor
  generalize cursor.restore row token = outcome at restored ⊢
  cases restored with
  | refused => exact tallied
  | taken boundary =>
    refine tallied.moved ?_ (fun kind => by cases kind <;> rfl) rfl
    intro kind
    cases kind with
    | value =>
      simp only [position, boundary.field]
      exact Nat.mul_mod_right _ _
    | count => exact countsBeside_aligned row _

theorem perform (tallied : Tallied history cursor) (row : Row) (operation : Operation) :
    Tallied (history.join (cursor.steppedBy row operation)) (cursor.perform row operation).2 := by
  cases operation with
  | next => exact tallied.next row
  | hasNext => exact tallied.sync row
  | peek =>
    simp only [Cursor.perform, peek_cursor]
    exact tallied.sync row
  | seek timestamp => exact tallied.seek row timestamp
  | save => exact (History.join_nil history).symm ▸ tallied
  | restore token => exact (History.join_nil history).symm ▸ tallied.restore row token

end Tallied

theorem run_tallied (row : Row) (operations : List Operation) :
    Tallied (run row operations).2 (run row operations).1 := by
  induction operations using List.reverseRecOn with
  | nil => exact Tallied.fresh.sync row
  | append_singleton operations operation ih =>
    rw [run_concat]
    exact ih.perform row operation

end Cursor

end Rollup
