import Rollup.Proofs.Merge

/-! A place in a row splits its values, and its counts if it has any. The pairs still to come are known
from the place alone, and reading takes them one by one. -/

namespace Rollup

structure Place where
  values : Gap
  counts? : Option Gap

namespace Place
open Merge

def gap? (place : Place) : StreamKind → Option Gap
  | .value => some place.values
  | .count => place.counts?

def start (values : List Cell) (counts? : Option (List Cell)) : Place :=
  ⟨⟨[], values⟩, counts?.map fun counts => ⟨[], counts⟩⟩

/-- The place of a row with the given values passed, when the counts beside them are looked up anew. -/
def resume (values : Gap) (counts? : Option (List Cell)) : Place :=
  ⟨values, counts?.map (realigned values)⟩

def sync (place : Place) : Place :=
  match place.counts? with
  | none => place
  | some counts => ⟨(settle place.values counts).1, some (settle place.values counts).2⟩

/-- The cells that a settled place stands on, and the place past them. -/
def next? (place : Place) : Option ((Cell × Option Cell) × Place) :=
  match place with
  | ⟨⟨passed, value :: values⟩, none⟩ => some ((value, none), ⟨⟨passed ++ [value], values⟩, none⟩)
  | ⟨⟨passed, value :: values⟩, some ⟨countsPassed, count :: counts⟩⟩ =>
    some ((value, some count), ⟨⟨passed ++ [value], values⟩, some ⟨countsPassed ++ [count], counts⟩⟩)
  | _ => none

/-- Each value still to come, with its count in a row that has counts. -/
def pairs (place : Place) : List (Cell × Option Cell) :=
  match place.counts? with
  | none => place.values.pending.map fun value => (value, none)
  | some counts => (joined place.values.pending counts.pending).map fun pair => (pair.1, some pair.2)

structure Sound (place : Place) : Prop where
  values : Increasing place.values.cells
  counts : ∀ counts ∈ place.counts?, Increasing counts.cells
  beside : ∀ counts ∈ place.counts?, Beside place.values counts

def cells (place : Place) : List Cell × Option (List Cell) := (place.values.cells, place.counts?.map Gap.cells)

theorem sync_counted {place : Place} {counts : Gap} (held : place.counts? = some counts) :
    place.sync = ⟨(settle place.values counts).1, some (settle place.values counts).2⟩ := by
  simp only [sync, held]

@[simp] theorem cells_start (values : List Cell) (counts? : Option (List Cell)) :
    (start values counts?).cells = (values, counts?) := by
  cases counts? <;> rfl

@[simp] theorem cells_resume (values : Gap) (counts? : Option (List Cell)) :
    (resume values counts?).cells = (values.cells, counts?) := by
  cases counts? with
  | none => rfl
  | some counts => simp only [resume, cells, Option.map_some, realigned_cells]

@[simp] theorem cells_sync (place : Place) : place.sync.cells = place.cells := by
  unfold sync
  split
  · rfl
  · next counts held =>
    obtain ⟨values, counts⟩ := settle_cells place.values counts
    simp only [cells, held, Option.map_some, values, counts]

@[simp] theorem sync_sync (place : Place) : place.sync.sync = place.sync := by
  cases held : place.counts? with
  | none => simp only [sync, held]
  | some counts =>
    rw [sync_counted held, sync_counted rfl]
    simp only [settle_settle]

theorem cells_next? {place after : Place} {pair : Cell × Option Cell} (taken : place.next? = some (pair, after)) :
    after.cells = place.cells := by
  unfold next? at taken
  split at taken <;> cases taken <;> simp [cells, Gap.cells]

theorem next?_counted {place after : Place} {pair : Cell × Option Cell} {counts : Gap}
    (held : place.counts? = some counts) (taken : place.next? = some (pair, after)) :
    ∃ valuesPassed value values countsPassed count counts,
      place = ⟨⟨valuesPassed, value :: values⟩, some ⟨countsPassed, count :: counts⟩⟩ ∧
        after = ⟨⟨valuesPassed ++ [value], values⟩, some ⟨countsPassed ++ [count], counts⟩⟩ := by
  unfold next? at taken
  split at taken
  · cases held
  · cases taken
    exact ⟨_, _, _, _, _, _, rfl, rfl⟩
  · cases taken

section Sound

private theorem sound_countless {values : Gap} (increasing : Increasing values.cells) : Sound ⟨values, none⟩ := by
  refine ⟨increasing, ?_, ?_⟩
  · intro counts member
    cases member
  · intro counts member
    cases member

private theorem sound_counted {values counts : Gap} (increasing : Increasing values.cells)
    (countsIncreasing : Increasing counts.cells) (beside : Beside values counts) : Sound ⟨values, some counts⟩ := by
  refine ⟨increasing, ?_, ?_⟩
  · intro gap member
    cases member
    exact countsIncreasing
  · intro gap member
    cases member
    exact beside

variable {values : List Cell} {counts? : Option (List Cell)}

theorem sound_start (increasing : Increasing values) (countsIncreasing : ∀ counts ∈ counts?, Increasing counts) :
    (start values counts?).Sound := by
  cases counts? with
  | none => exact sound_countless increasing
  | some counts => exact sound_counted increasing (countsIncreasing counts rfl) (beside_start values counts)

theorem sound_resume {values : Gap} (increasing : Increasing values.cells)
    (countsIncreasing : ∀ counts ∈ counts?, Increasing counts) : (resume values counts?).Sound := by
  cases counts? with
  | none => exact sound_countless increasing
  | some counts =>
    apply sound_counted increasing
    · rw [realigned_cells]
      exact countsIncreasing counts rfl
    · exact beside_realigned values (countsIncreasing counts rfl)

variable {place after : Place} {pair : Cell × Option Cell}

theorem Sound.sync (sound : place.Sound) : place.sync.Sound := by
  unfold Place.sync
  split
  · exact sound
  · next counts held =>
    have cells := settle_cells place.values counts
    apply sound_counted
    · rw [cells.1]
      exact sound.values
    · rw [cells.2]
      exact sound.counts counts held
    · exact (sound.beside counts held).settle sound.values (sound.counts counts held)

theorem sync_paired {counts : Gap} {value count : Cell} {values' counts' : List Cell}
    (held : place.sync.counts? = some counts) (valuesHead : place.sync.values.pending = value :: values')
    (countsHead : counts.pending = count :: counts') : value.offset = count.offset := by
  unfold Place.sync at held valuesHead
  split at held
  · next alone => rw [alone] at held; cases held
  · next gap paired =>
    simp only [paired] at valuesHead
    cases held
    rcases settle_done place.values gap with ended | ended | ⟨value', _, count', _, left, right, same⟩
    · rw [ended] at valuesHead
      cases valuesHead
    · rw [ended] at countsHead
      cases countsHead
    · rw [left] at valuesHead
      rw [right] at countsHead
      cases valuesHead
      cases countsHead
      exact same

theorem pairs_sync (sound : place.Sound) : place.sync.pairs = place.pairs := by
  unfold Place.sync
  split
  · rfl
  · next counts held =>
    simp only [pairs, held]
    rw [joined_settle sound.values (sound.counts counts held)]

theorem pairs_of_next?_none (ended : place.next? = none) : place.pairs = [] := by
  obtain ⟨⟨passed, pending⟩, counts?⟩ := place
  cases pending with
  | nil => cases counts? <;> rfl
  | cons value values =>
    cases counts? with
    | none => cases ended
    | some counts =>
      obtain ⟨countsPassed, countsPending⟩ := counts
      cases countsPending with
      | nil => simp only [pairs, joined_nil_counts, List.map_nil]
      | cons count counts => cases ended

/-- Reading a settled place takes the first of the pairs to come and leaves the others. -/
theorem Sound.next (sound : place.Sound) (taken : place.sync.next? = some (pair, after)) :
    place.pairs = pair :: after.pairs ∧ after.Sound := by
  rw [← pairs_sync sound]
  have settled := sound.sync
  have paired : ∀ counts value count values' counts', place.sync.counts? = some counts →
      place.sync.values.pending = value :: values' → counts.pending = count :: counts' →
      value.offset = count.offset := by
    intro counts value count values' counts' held valuesHead countsHead
    exact sync_paired held valuesHead countsHead
  generalize place.sync = here at taken settled paired ⊢
  unfold next? at taken
  split at taken
  · next passed value values =>
    cases taken
    refine ⟨rfl, ?_⟩
    apply sound_countless
    rw [Gap.cells_pass]
    exact settled.values
  · next passed value values countsPassed count counts =>
    cases taken
    have same := paired _ value count values counts rfl rfl rfl
    have valuesIncreasing := settled.values
    have countsIncreasing := settled.counts _ rfl
    refine ⟨?_, ?_⟩
    · simp only [pairs, joined_pair same valuesIncreasing.split.2, List.map_cons]
    · apply sound_counted
      · rwa [Gap.cells_pass]
      · rwa [Gap.cells_pass]
      · exact (settled.beside _ rfl).pass_pair valuesIncreasing countsIncreasing same
  · cases taken

/-- Places with the same values passed settle in the same place, wherever their counts stood. -/
theorem sync_eq_of_values {other : Place} (sound : place.Sound) (otherSound : other.Sound)
    (same : place.values = other.values) (cells : place.cells = other.cells) : place.sync = other.sync := by
  have counts : place.counts?.map Gap.cells = other.counts?.map Gap.cells := congrArg Prod.snd cells
  obtain ⟨values, counts?⟩ := place
  obtain ⟨values', counts'?⟩ := other
  simp only at same counts
  subst values'
  cases counts? with
  | none =>
    cases counts'? with
    | none => rfl
    | some _ => cases counts
  | some first =>
    cases counts'? with
    | none => cases counts
    | some second =>
      have equal : first.cells = second.cells := Option.some.inj counts
      have left := (sound.beside first rfl).settle_realigned (sound.counts first rfl)
      have right := (otherSound.beside second rfl).settle_realigned (otherSound.counts second rfl)
      rw [equal] at left
      simp only [Place.sync, ← left, ← right]

end Sound

private theorem settle_pending_le (values counts : Gap) :
    (settle values counts).1.pending.length ≤ values.pending.length := by
  fun_induction settle values counts with
  | case1 => exact Nat.le_refl _
  | case2 _ _ _ _ _ _ _ _ ih => exact ih
  | case3 _ _ _ _ _ _ _ _ ih => exact Nat.le_succ_of_le ih
  | case4 => exact Nat.le_refl _

theorem sync_pending_le (place : Place) : place.sync.values.pending.length ≤ place.values.pending.length := by
  unfold sync
  split
  · exact Nat.le_refl _
  · exact settle_pending_le _ _

theorem next?_pending {place after : Place} {pair : Cell × Option Cell} (taken : place.next? = some (pair, after)) :
    after.values.pending.length < place.values.pending.length := by
  unfold next? at taken
  split at taken <;> cases taken <;> exact Nat.lt_succ_self _

theorem head?_of_next? {place after : Place} {pair : Cell × Option Cell} (taken : place.next? = some (pair, after)) :
    place.values.pending.head? = some pair.1 := by
  unfold next? at taken
  split at taken <;> cases taken <;> rfl

def skip (early : Cell → Bool) (place : Place) : Place :=
  match _taken : place.sync.next? with
  | none => place.sync
  | some (pair, after) => if early pair.1 then after.skip early else place.sync
termination_by place.values.pending.length
decreasing_by
  have first := place.sync_pending_le
  have second := next?_pending ‹place.sync.next? = _›
  omega

@[simp] theorem cells_skip (early : Cell → Bool) (place : Place) : (place.skip early).cells = place.cells := by
  fun_induction skip early place with
  | case1 place _ => exact place.cells_sync
  | case2 place pair after taken _ ih => rw [ih, cells_next? taken, cells_sync]
  | case3 place _ _ _ _ => exact place.cells_sync

end Place

end Rollup
