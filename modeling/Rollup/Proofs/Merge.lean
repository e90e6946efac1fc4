import Mathlib.Data.List.Basic
import Mathlib.Data.List.TakeWhile
import Rollup.Proofs.Cells

/-! Reading two streams in lockstep, on lists of cells. A gap splits a stream into the cells passed and
those still to come. Settling two gaps passes over the smaller of two unequal offsets; the pairs
still to come are the same afterwards. -/

namespace Rollup

structure Gap where
  passed : List Cell
  pending : List Cell

namespace Gap

def cells (gap : Gap) : List Cell := gap.passed ++ gap.pending

theorem cells_pass (passed pending : List Cell) (cell : Cell) :
    cells ⟨passed ++ [cell], pending⟩ = cells ⟨passed, cell :: pending⟩ := by
  simp only [cells, List.append_assoc, List.singleton_append]

end Gap

namespace Increasing

variable {front back : List Cell} {cell : Cell}

theorem split (increasing : Increasing (front ++ cell :: back)) :
    (∀ earlier ∈ front, earlier.offset < cell.offset) ∧ (∀ later ∈ back, cell.offset < later.offset) := by
  obtain ⟨_, rest, across⟩ := List.pairwise_append.mp increasing
  exact ⟨fun earlier member => across earlier member cell (by simp), (List.pairwise_cons.mp rest).1⟩

theorem pending (increasing : Increasing (front ++ back)) : Increasing back :=
  increasing.sublist (List.sublist_append_right front back)

theorem passed (increasing : Increasing (front ++ back)) : Increasing front :=
  increasing.sublist (List.sublist_append_left front back)

theorem eq_of_offset {cells : List Cell} {first second : Cell} (increasing : Increasing cells)
    (left : first ∈ cells) (right : second ∈ cells) (same : first.offset = second.offset) : first = second := by
  induction cells with
  | nil => cases left
  | cons cell cells ih =>
    obtain ⟨later, rest⟩ := List.pairwise_cons.mp increasing
    rcases List.mem_cons.mp left with head | inside <;> rcases List.mem_cons.mp right with head' | inside'
    · exact head.trans head'.symm
    · have := later second inside'
      rw [← head] at this
      omega
    · have := later first inside
      rw [← head'] at this
      omega
    · exact ih rest inside inside'

end Increasing

namespace Merge

/-- Passes over cells until both streams stand on the same offset or one of them ends. -/
def settle : Gap → Gap → Gap × Gap
  | ⟨valuesPassed, value :: values⟩, ⟨countsPassed, count :: counts⟩ =>
    if value.offset = count.offset then (⟨valuesPassed, value :: values⟩, ⟨countsPassed, count :: counts⟩)
    else if count.offset < value.offset then
      settle ⟨valuesPassed, value :: values⟩ ⟨countsPassed ++ [count], counts⟩
    else settle ⟨valuesPassed ++ [value], values⟩ ⟨countsPassed, count :: counts⟩
  | values, counts => (values, counts)
termination_by values counts => values.pending.length + counts.pending.length

/-- Every pair of a value and a count with the same offset, in the order of the values. -/
def joined (values counts : List Cell) : List (Cell × Cell) :=
  values.filterMap fun value =>
    (counts.find? fun count => count.offset = value.offset).map fun count => (value, count)

/-- How two gaps may stand to each other. No count that belongs to a passed value is still to come, and
no passed count belongs to a value that is. -/
structure Beside (values counts : Gap) : Prop where
  ahead : ∀ last ∈ values.passed.getLast?, ∀ count ∈ counts.pending, last.offset < count.offset
  behind : ∀ count ∈ counts.passed,
    (∃ last ∈ values.passed.getLast?, count.offset ≤ last.offset) ∨
      ∃ next ∈ values.pending.head?, count.offset < next.offset

/-- A cell that has no partner among the others and lies before one of them. -/
def Stray (others : List Cell) (cell : Cell) : Prop :=
  (∀ other ∈ others, other.offset ≠ cell.offset) ∧ ∃ other ∈ others, cell.offset < other.offset

theorem settle_cells (values counts : Gap) :
    (settle values counts).1.cells = values.cells ∧ (settle values counts).2.cells = counts.cells := by
  fun_induction settle values counts with
  | case1 => exact ⟨rfl, rfl⟩
  | case2 valuesPassed value values countsPassed count counts different smaller ih =>
    rwa [Gap.cells_pass] at ih
  | case3 valuesPassed value values countsPassed count counts different smaller ih =>
    rwa [Gap.cells_pass] at ih
  | case4 => exact ⟨rfl, rfl⟩

theorem settle_done (values counts : Gap) :
    (settle values counts).1.pending = [] ∨ (settle values counts).2.pending = [] ∨
      ∃ value values' count counts', (settle values counts).1.pending = value :: values' ∧
        (settle values counts).2.pending = count :: counts' ∧ value.offset = count.offset := by
  fun_induction settle values counts with
  | case1 valuesPassed value values countsPassed count counts same =>
    exact .inr (.inr ⟨value, values, count, counts, rfl, rfl, same⟩)
  | case2 _ _ _ _ _ _ _ _ ih => exact ih
  | case3 _ _ _ _ _ _ _ _ ih => exact ih
  | case4 values counts ended =>
    obtain ⟨valuesPassed, valuesPending⟩ := values
    obtain ⟨countsPassed, countsPending⟩ := counts
    cases valuesPending with
    | nil => exact .inl rfl
    | cons value values =>
      cases countsPending with
      | nil => exact .inr (.inl rfl)
      | cons count counts => exact (ended _ _ _ _ _ _ rfl rfl).elim

/-- Settled gaps stay as they are. -/
theorem settle_settle (values counts : Gap) :
    settle (settle values counts).1 (settle values counts).2 = settle values counts := by
  fun_induction settle values counts with
  | case1 valuesPassed value values countsPassed count counts same => rw [settle, if_pos same]
  | case2 _ _ _ _ _ _ _ _ ih => exact ih
  | case3 _ _ _ _ _ _ _ _ ih => exact ih
  | case4 values counts ended =>
    rw [settle]
    exact ended

theorem joined_nil_counts (values : List Cell) : joined values [] = [] := by
  simp [joined]

private theorem find?_eq_none_of_lt {counts : List Cell} {offset : Nat}
    (above : ∀ count ∈ counts, offset < count.offset) :
    counts.find? (fun count => count.offset = offset) = none := by
  refine List.find?_eq_none.mpr fun count member => ?_
  have := above count member
  simp only [decide_eq_true_eq]
  omega

theorem joined_pass_count {values counts : List Cell} {count : Cell}
    (below : ∀ value ∈ values, count.offset < value.offset) :
    joined values (count :: counts) = joined values counts := by
  apply List.filterMap_congr
  intro value member
  have different : ¬ count.offset = value.offset := Nat.ne_of_lt (below value member)
  simp only [List.find?_cons, different, decide_false]

theorem joined_pass_value {values counts : List Cell} {value : Cell}
    (below : ∀ count ∈ counts, value.offset < count.offset) :
    joined (value :: values) counts = joined values counts := by
  simp only [joined, List.filterMap_cons, find?_eq_none_of_lt below, Option.map_none]

theorem joined_pair {values counts : List Cell} {value count : Cell} (same : value.offset = count.offset)
    (later : ∀ other ∈ values, value.offset < other.offset) :
    joined (value :: values) (count :: counts) = (value, count) :: joined values counts := by
  have found : (count :: counts).find? (fun other => other.offset = value.offset) = some count := by
    simp only [List.find?_cons, same, decide_true]
  have rest : joined values (count :: counts) = joined values counts := by
    apply joined_pass_count
    intro other member
    exact same ▸ later other member
  rw [← rest]
  simp only [joined, List.filterMap_cons, found, Option.map_some]

theorem joined_settle {values counts : Gap} (valuesIncreasing : Increasing values.cells)
    (countsIncreasing : Increasing counts.cells) :
    joined (settle values counts).1.pending (settle values counts).2.pending =
      joined values.pending counts.pending := by
  fun_induction settle values counts with
  | case1 => rfl
  | case2 valuesPassed value values countsPassed count counts different smaller ih =>
    have later := valuesIncreasing.split.2
    rw [ih valuesIncreasing (by rwa [Gap.cells_pass])]
    apply Eq.symm
    apply joined_pass_count
    intro other member
    rcases List.mem_cons.mp member with rfl | member
    · exact smaller
    · exact Nat.lt_trans smaller (later other member)
  | case3 valuesPassed value values countsPassed count counts different smaller ih =>
    have later := countsIncreasing.split.2
    rw [ih (by rwa [Gap.cells_pass]) countsIncreasing]
    apply Eq.symm
    apply joined_pass_value
    intro other member
    rcases List.mem_cons.mp member with rfl | member
    · omega
    · have := later other member
      omega
  | case4 => rfl

section Beside
variable {valuesPassed values countsPassed counts : List Cell} {value count : Cell}

theorem beside_start (values counts : List Cell) : Beside ⟨[], values⟩ ⟨[], counts⟩ := by
  constructor
  · intro last member
    cases member
  · intro count member
    cases member

theorem Beside.pass_count (beside : Beside ⟨valuesPassed, value :: values⟩ ⟨countsPassed, count :: counts⟩)
    (smaller : count.offset < value.offset) :
    Beside ⟨valuesPassed, value :: values⟩ ⟨countsPassed ++ [count], counts⟩ := by
  constructor
  · intro last member other pending
    exact beside.ahead last member other (List.mem_cons_of_mem _ pending)
  · intro other member
    rcases List.mem_append.mp member with earlier | same
    · exact beside.behind other earlier
    · rw [List.mem_singleton.mp same]
      exact .inr ⟨value, rfl, smaller⟩

private theorem Beside.behind_first
    (beside : Beside ⟨valuesPassed, value :: values⟩ ⟨countsPassed, counts⟩)
    (increasing : Increasing (valuesPassed ++ value :: values)) {other : Cell} (member : other ∈ countsPassed) :
    other.offset < value.offset := by
  rcases beside.behind other member with ⟨last, isLast, below⟩ | ⟨next, isNext, below⟩
  · have := increasing.split.1 last (List.mem_of_getLast? isLast)
    omega
  · cases isNext
    exact below

theorem Beside.pass_value (beside : Beside ⟨valuesPassed, value :: values⟩ ⟨countsPassed, count :: counts⟩)
    (valuesIncreasing : Increasing (valuesPassed ++ value :: values))
    (countsIncreasing : Increasing (countsPassed ++ count :: counts)) (smaller : value.offset < count.offset) :
    Beside ⟨valuesPassed ++ [value], values⟩ ⟨countsPassed, count :: counts⟩ := by
  constructor
  · intro last member other pending
    rw [List.getLast?_concat] at member
    cases member
    rcases List.mem_cons.mp pending with rfl | later
    · exact smaller
    · exact Nat.lt_trans smaller (countsIncreasing.split.2 other later)
  · intro other member
    exact .inl ⟨value, by simp, Nat.le_of_lt (beside.behind_first valuesIncreasing member)⟩

theorem Beside.pass_pair (beside : Beside ⟨valuesPassed, value :: values⟩ ⟨countsPassed, count :: counts⟩)
    (valuesIncreasing : Increasing (valuesPassed ++ value :: values))
    (countsIncreasing : Increasing (countsPassed ++ count :: counts)) (same : value.offset = count.offset) :
    Beside ⟨valuesPassed ++ [value], values⟩ ⟨countsPassed ++ [count], counts⟩ := by
  constructor
  · intro last member other pending
    rw [List.getLast?_concat] at member
    cases member
    exact same ▸ countsIncreasing.split.2 other pending
  · intro other member
    refine .inl ⟨value, by simp, ?_⟩
    rcases List.mem_append.mp member with earlier | new
    · exact Nat.le_of_lt (beside.behind_first valuesIncreasing earlier)
    · rw [List.mem_singleton.mp new]
      exact Nat.le_of_eq same.symm

end Beside

theorem Beside.ahead_value {values counts : Gap} (beside : Beside values counts) (increasing : Increasing values.cells)
    {value count : Cell} (passed : value ∈ values.passed) (pending : count ∈ counts.pending) :
    value.offset < count.offset := by
  obtain ⟨valuesPassed, valuesPending⟩ := values
  rcases List.eq_nil_or_concat valuesPassed with rfl | ⟨front, last, rfl⟩
  · cases passed
  · rw [List.concat_eq_append] at *
    have above := beside.ahead last (by simp) count pending
    rcases List.mem_append.mp passed with earlier | same
    · exact Nat.lt_trans (increasing.passed.split.1 value earlier) above
    · rw [List.mem_singleton.mp same]
      exact above

theorem Beside.behind_value {values counts : Gap} (beside : Beside values counts) (increasing : Increasing values.cells)
    {value count : Cell} (pending : value ∈ values.pending) (passed : count ∈ counts.passed) :
    count.offset < value.offset := by
  obtain ⟨valuesPassed, valuesPending⟩ := values
  cases valuesPending with
  | nil => cases pending
  | cons first valuesPending =>
    have below := beside.behind_first increasing passed
    rcases List.mem_cons.mp pending with rfl | later
    · exact below
    · exact Nat.lt_trans below (increasing.split.2 value later)

theorem Beside.settle {values counts : Gap} (beside : Beside values counts)
    (valuesIncreasing : Increasing values.cells) (countsIncreasing : Increasing counts.cells) :
    Beside (settle values counts).1 (settle values counts).2 := by
  fun_induction Merge.settle values counts with
  | case1 => exact beside
  | case2 valuesPassed value values countsPassed count counts different smaller ih =>
    refine ih (beside.pass_count smaller) valuesIncreasing ?_
    rwa [Gap.cells_pass]
  | case3 valuesPassed value values countsPassed count counts different smaller ih =>
    refine ih (beside.pass_value valuesIncreasing countsIncreasing (by omega)) ?_ countsIncreasing
    rwa [Gap.cells_pass]
  | case4 => exact beside

/-- Settling passes over cells only that are strays among the whole of the other stream. -/
theorem Beside.settle_stray {values counts : Gap} (beside : Beside values counts)
    (valuesIncreasing : Increasing values.cells) (countsIncreasing : Increasing counts.cells) :
    ∃ valuesMore countsMore, (Merge.settle values counts).1.passed = values.passed ++ valuesMore ∧
      (Merge.settle values counts).2.passed = counts.passed ++ countsMore ∧
      (∀ value ∈ valuesMore, Stray counts.cells value) ∧ ∀ count ∈ countsMore, Stray values.cells count := by
  fun_induction Merge.settle values counts with
  | case1 | case4 => exact ⟨[], [], by simp, by simp, by simp, by simp⟩
  | case2 valuesPassed value values countsPassed count counts different smaller ih =>
    have lone : ∀ other ∈ valuesPassed ++ value :: values, other.offset ≠ count.offset := by
      intro other member
      have later := valuesIncreasing.split.2
      rcases List.mem_append.mp member with passed | pending
      · exact Nat.ne_of_lt (beside.ahead_value valuesIncreasing passed List.mem_cons_self)
      · rcases List.mem_cons.mp pending with rfl | pending
        · exact different
        · have above := later other pending
          omega
    obtain ⟨valuesMore, countsMore, valuesPast, countsPast, valuesStray, countsStray⟩ := ih (beside.pass_count smaller)
      valuesIncreasing (by rwa [Gap.cells_pass])
    refine ⟨valuesMore, count :: countsMore, valuesPast, by simpa using countsPast, ?_, ?_⟩
    · rwa [Gap.cells_pass] at valuesStray
    · intro other member
      rcases List.mem_cons.mp member with rfl | member
      · exact ⟨lone, value, by simp [Gap.cells], smaller⟩
      · exact countsStray other member
  | case3 valuesPassed value values countsPassed count counts different notSmaller ih =>
    have smaller : value.offset < count.offset := by omega
    have lone : ∀ other ∈ countsPassed ++ count :: counts, other.offset ≠ value.offset := by
      intro other member
      rcases List.mem_append.mp member with passed | pending
      · exact Nat.ne_of_lt (beside.behind_value valuesIncreasing List.mem_cons_self passed)
      · rcases List.mem_cons.mp pending with rfl | pending
        · exact Ne.symm different
        · have above := countsIncreasing.split.2 other pending
          omega
    obtain ⟨valuesMore, countsMore, valuesPast, countsPast, valuesStray, countsStray⟩ := ih
      (beside.pass_value valuesIncreasing countsIncreasing smaller)
      (by rwa [Gap.cells_pass]) countsIncreasing
    refine ⟨value :: valuesMore, countsMore, by simpa using valuesPast, countsPast, ?_, ?_⟩
    · intro other member
      rcases List.mem_cons.mp member with rfl | member
      · exact ⟨lone, count, by simp [Gap.cells], smaller⟩
      · exact valuesStray other member
    · rwa [Gap.cells_pass] at countsStray

/-- The gap in the counts just past every count up to the last passed value. -/
def realigned (values : Gap) (counts : List Cell) : Gap :=
  match values.passed.getLast? with
  | none => ⟨[], counts⟩
  | some last =>
    ⟨counts.takeWhile fun count => count.offset ≤ last.offset,
      counts.dropWhile fun count => count.offset ≤ last.offset⟩

@[simp] theorem realigned_cells (values : Gap) (counts : List Cell) : (realigned values counts).cells = counts := by
  unfold realigned
  split
  · rfl
  · exact List.takeWhile_append_dropWhile

private theorem lt_of_mem_dropWhile {counts : List Cell} {bound : Nat} (increasing : Increasing counts)
    {count : Cell} (member : count ∈ counts.dropWhile fun count => count.offset ≤ bound) :
    bound < count.offset := by
  induction counts with
  | nil => cases member
  | cons first counts ih =>
    obtain ⟨later, rest⟩ := List.pairwise_cons.mp increasing
    rw [List.dropWhile_cons] at member
    split at member
    · exact ih rest member
    · next above =>
      have least : bound < first.offset := by simpa using above
      rcases List.mem_cons.mp member with rfl | inside
      · exact least
      · exact Nat.lt_trans least (later count inside)

theorem beside_realigned (values : Gap) {counts : List Cell} (increasing : Increasing counts) :
    Beside values (realigned values counts) := by
  unfold realigned
  split
  · next noLast =>
    constructor
    · intro last member
      rw [noLast] at member
      cases member
    · intro count member
      cases member
  · next last isLast =>
    constructor
    · intro other member count pending
      rw [isLast] at member
      cases member
      exact lt_of_mem_dropWhile increasing pending
    · intro count member
      exact .inl ⟨last, isLast, by simpa using List.mem_takeWhile_imp member⟩

private theorem span_append (passes : Cell → Bool) (front back : List Cell)
    (stops : ∀ first ∈ back.head?, passes first = false) :
    (front ++ back).takeWhile passes = front.takeWhile passes ∧
      (front ++ back).dropWhile passes = front.dropWhile passes ++ back := by
  induction front with
  | nil =>
    cases back with
    | nil => exact ⟨rfl, rfl⟩
    | cons cell back => simp [stops cell rfl]
  | cons cell front ih =>
    rw [List.cons_append, List.takeWhile_cons, List.takeWhile_cons, List.dropWhile_cons, List.dropWhile_cons]
    split
    · exact ⟨congrArg (cell :: ·) ih.1, ih.2⟩
    · exact ⟨rfl, rfl⟩

private theorem settle_pass_counts (valuesPassed values : List Cell) (value : Cell)
    (between countsPassed counts : List Cell) (below : ∀ count ∈ between, count.offset < value.offset) :
    settle ⟨valuesPassed, value :: values⟩ ⟨countsPassed, between ++ counts⟩ =
      settle ⟨valuesPassed, value :: values⟩ ⟨countsPassed ++ between, counts⟩ := by
  induction between generalizing countsPassed with
  | nil => rw [List.append_nil, List.nil_append]
  | cons count between ih =>
    have smaller := below count (by simp)
    have later : ∀ other ∈ between, other.offset < value.offset := by
      intro other member
      exact below other (List.mem_cons_of_mem _ member)
    rw [List.cons_append, settle, if_neg (by omega), if_pos smaller, ih (countsPassed ++ [count]) later,
      List.append_assoc, List.singleton_append]

/-- The realigned gap lies some cells further back, and these all come before the next value. -/
private theorem Beside.realigned_back {values : Gap} {countsPassed countsPending : List Cell}
    (beside : Beside values ⟨countsPassed, countsPending⟩) (increasing : Increasing (countsPassed ++ countsPending)) :
    ∃ front between, countsPassed = front ++ between ∧
      realigned values (countsPassed ++ countsPending) = ⟨front, between ++ countsPending⟩ ∧
      ∀ count ∈ between, ∃ next ∈ values.pending.head?, count.offset < next.offset := by
  unfold realigned
  split
  · next noLast =>
    refine ⟨[], countsPassed, rfl, rfl, ?_⟩
    intro count member
    rcases beside.behind count member with ⟨last, isLast, _⟩ | below
    · rw [noLast] at isLast
      cases isLast
    · exact below
  · next last isLast =>
    have stops : ∀ count ∈ countsPending.head?, decide (count.offset ≤ last.offset) = false := by
      intro count isFirst
      have above := beside.ahead last isLast count (List.mem_of_mem_head? isFirst)
      simpa using above
    obtain ⟨front, rest⟩ := span_append _ countsPassed countsPending stops
    refine ⟨countsPassed.takeWhile fun count => count.offset ≤ last.offset,
      countsPassed.dropWhile fun count => count.offset ≤ last.offset,
      List.takeWhile_append_dropWhile.symm, ?_, ?_⟩
    · rw [front, rest]
    · intro count member
      have above := lt_of_mem_dropWhile increasing.passed member
      rcases beside.behind count (List.dropWhile_subset _ member) with ⟨other, isOther, atMost⟩ | below
      · rw [isLast] at isOther
        cases isOther
        omega
      · exact below

theorem Beside.realigned_le {values counts : Gap} (beside : Beside values counts)
    (increasing : Increasing counts.cells) :
    (realigned values counts.cells).passed.length ≤ counts.passed.length := by
  obtain ⟨countsPassed, countsPending⟩ := counts
  obtain ⟨front, between, rfl, moved, _⟩ := beside.realigned_back increasing
  rw [Gap.cells, moved, List.length_append]
  exact Nat.le_add_right _ _

/-- Wherever counts may stand beside a gap in the values, settling ends where it ends from the
realigned counts. The values alone decide. -/
theorem Beside.settle_realigned {values counts : Gap} (beside : Beside values counts)
    (increasing : Increasing counts.cells) :
    Merge.settle values (realigned values counts.cells) = Merge.settle values counts := by
  obtain ⟨valuesPassed, valuesPending⟩ := values
  obtain ⟨countsPassed, countsPending⟩ := counts
  obtain ⟨front, between, rfl, moved, below⟩ := beside.realigned_back increasing
  rw [Gap.cells, moved]
  cases valuesPending with
  | nil =>
    cases between with
    | nil => rw [List.append_nil, List.nil_append]
    | cons count between =>
      obtain ⟨next, isNext, _⟩ := below count (by simp)
      cases isNext
  | cons value values =>
    apply settle_pass_counts
    intro count member
    obtain ⟨next, isNext, smaller⟩ := below count member
    cases isNext
    exact smaller

end Merge

end Rollup
