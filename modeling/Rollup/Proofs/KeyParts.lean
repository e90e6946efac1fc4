import Rollup.Proofs.IntegerWidths
import Rollup.Proofs.OneRow

/-! A key is cut into its parts without loss: laid one behind the other, they are its bytes. So two keys of a layout are
of one row just if they agree in every part but the salt. Where the widths of the layout add up to words, no part is
looked for outside the bytes. -/

namespace Rollup

namespace RowKey

section Pairs
variable {first second : Nat} {bytes : Bytes}

theorem flatMap_pairs (first second : Nat) (bytes : Bytes) :
    (pairs first second bytes).flatMap (fun pair => pair.1 ++ pair.2) =
      bytes.take ((pairs first second bytes).length * (first + second)) := by
  fun_induction pairs first second bytes with
  | case1 bytes _ ih =>
    simp only [List.flatMap_cons, ih, List.length_cons, Nat.succ_mul]
    rw [Nat.add_comm _ (first + second), List.take_add, List.take_add]
  | case2 => simp only [List.flatMap_nil, List.length_nil, Nat.zero_mul, List.take_zero]

theorem lengths_of_mem_pairs {pair : Bytes × Bytes} (member : pair ∈ pairs first second bytes) :
    pair.1.length = first ∧ pair.2.length = second := by
  fun_induction pairs first second bytes with
  | case1 bytes wide ih =>
    rcases List.mem_cons.mp member with rfl | later
    · simp only [List.length_take, List.length_drop]
      omega
    · exact ih later
  | case2 => cases member

/-- Less than a pair is left over, unless a pair is nothing. -/
theorem rest_of_pairs (first second : Nat) (bytes : Bytes) :
    (bytes.drop ((pairs first second bytes).length * (first + second))).length < first + second ∨
      first + second = 0 ∧ pairs first second bytes = [] := by
  fun_induction pairs first second bytes with
  | case1 bytes wide ih =>
    rw [List.drop_drop] at ih
    rw [List.length_cons, Nat.succ_mul, Nat.add_comm]
    apply ih.imp_right
    omega
  | case2 bytes narrow =>
    simp only [List.length_nil, Nat.zero_mul, List.drop_zero, and_true]
    omega

end Pairs

variable {layout : KeyLayout} {key first second : RowKey} {bytes other : Bytes}

/-- The parts of a key make up its bytes, and each has its width. -/
structure Cut (key : RowKey) : Prop where
  whole : key.salt ++ key.metric ++ Bytes.ofNat 4 key.baseTime.toNat ++
    key.tags.flatMap (fun tag => tag.1 ++ tag.2) ++ key.trailing = key.bytes
  salt : key.salt.length = key.layout.salt.toNat
  metric : key.metric.length = key.layout.metric.toNat
  baseTime : key.baseTime.toNat < 4294967296
  tags : ∀ tag ∈ key.tags, tag.1.length = key.layout.tagKey.toNat ∧ tag.2.length = key.layout.tagValue.toNat
  trailing : key.trailing.length < key.layout.tagKey.toNat + key.layout.tagValue.toNat ∨
    key.layout.tagKey = 0 ∧ key.layout.tagValue = 0 ∧ key.tags = [] ∧
      key.trailing = key.bytes.drop key.layout.minLength

theorem ofBytes_isOk_iff (layout : KeyLayout) (bytes : Bytes) :
    (∃ key, ofBytes layout bytes = .ok key) ↔ layout.Admits bytes := by
  constructor
  · rintro ⟨key, parsed⟩
    obtain ⟨rfl, rfl⟩ := ofBytes_ok parsed
    exact key.admitted
  · intro admits
    exact ⟨_, ofBytes_of_admits admits⟩

private theorem length_baseTime (key : RowKey) : ((key.bytes.drop key.layout.baseTimeStart).take 4).length = 4 := by
  have long := key.admitted.long
  unfold KeyLayout.minLength at long
  simp only [List.length_take, List.length_drop]
  omega

theorem toNat_baseTime (key : RowKey) :
    key.baseTime.toNat = Bytes.toNat ((key.bytes.drop key.layout.baseTimeStart).take 4) ∧
      key.baseTime.toNat < 4294967296 := by
  have bound := Bytes.toNat_lt ((key.bytes.drop key.layout.baseTimeStart).take 4)
  rw [length_baseTime] at bound
  have range : Nat.pow 256 4 = 4294967296 := rfl
  have same : key.baseTime.toNat = Bytes.toNat ((key.bytes.drop key.layout.baseTimeStart).take 4) := by
    rw [RowKey.baseTime, UInt64.toNat_ofNat']
    apply Nat.mod_eq_of_lt
    omega
  exact ⟨same, by omega⟩

theorem ofNat_baseTime (key : RowKey) :
    Bytes.ofNat 4 key.baseTime.toNat = (key.bytes.drop key.layout.baseTimeStart).take 4 := by
  have written := Bytes.ofNat_toNat ((key.bytes.drop key.layout.baseTimeStart).take 4)
  rwa [length_baseTime, ← (toNat_baseTime key).1] at written

/-- Behind the salt stand all the parts that tell rows apart. -/
theorem unsalted (key : RowKey) :
    key.bytes.drop key.layout.salt.toNat = key.metric ++ Bytes.ofNat 4 key.baseTime.toNat ++
      key.tags.flatMap (fun tag => tag.1 ++ tag.2) ++ key.trailing := by
  have tags : key.tags.flatMap (fun tag => tag.1 ++ tag.2) ++ key.trailing = key.bytes.drop key.layout.minLength := by
    rw [RowKey.tags, flatMap_pairs, ← RowKey.tags]
    exact List.take_append_drop _ _
  have time : Bytes.ofNat 4 key.baseTime.toNat ++ key.bytes.drop key.layout.minLength =
      key.bytes.drop key.layout.baseTimeStart := by
    rw [ofNat_baseTime, KeyLayout.minLength, ← List.drop_drop]
    exact List.take_append_drop _ _
  have metric : key.metric ++ key.bytes.drop key.layout.baseTimeStart = key.bytes.drop key.layout.salt.toNat := by
    rw [RowKey.metric, KeyLayout.baseTimeStart, ← List.drop_drop]
    exact List.take_append_drop _ _
  simp only [List.append_assoc, tags, time, metric]

theorem cut (key : RowKey) : key.Cut := by
  have long := key.admitted.long
  unfold KeyLayout.minLength KeyLayout.baseTimeStart at long
  refine ⟨?_, ?_, ?_, (toNat_baseTime key).2, fun tag member => lengths_of_mem_pairs member, ?_⟩
  · have parts := unsalted key
    simp only [List.append_assoc] at parts ⊢
    rw [← parts]
    exact List.take_append_drop _ _
  · rw [RowKey.salt, List.length_take]
    omega
  · rw [RowKey.metric, List.length_take, List.length_drop]
    omega
  · apply (rest_of_pairs _ _ _).imp_right
    rintro ⟨nothing, noPairs⟩
    have untagged : key.tags = [] := noPairs
    obtain ⟨noKey, noValue⟩ := Nat.add_eq_zero_iff.mp nothing
    refine ⟨UInt64.toNat_inj.mp noKey, UInt64.toNat_inj.mp noValue, untagged, ?_⟩
    simp only [RowKey.trailing, untagged, List.length_nil, Nat.zero_mul, List.drop_zero]

/-- A byte string is of the row of a key just if it is a key with the same parts behind the salt. -/
theorem matchesRow_iff_parts :
    key.matchesRow other = true ↔ ∃ own, ofBytes key.layout other = .ok own ∧ own.metric = key.metric ∧
      own.baseTime = key.baseTime ∧ own.tags = key.tags ∧ own.trailing = key.trailing := by
  constructor
  · intro matched
    obtain ⟨own, parsed, same⟩ := exists_sameRow matched
    have parts := same.sameParts
    exact ⟨own, parsed, parts.metric, parts.baseTime, same.tags, parts.trailing⟩
  · rintro ⟨own, parsed, metric, baseTime, tags, trailing⟩
    obtain ⟨layout, rfl⟩ := ofBytes_ok parsed
    have same : own.bytes.drop key.layout.salt.toNat = key.bytes.drop key.layout.salt.toNat := by
      rw [← layout, unsalted own, layout, unsalted key, metric, baseTime, tags, trailing]
    have length := congrArg List.length same
    have long := key.admitted.long
    have longToo := own.admitted.long
    rw [layout] at longToo
    unfold KeyLayout.minLength KeyLayout.baseTimeStart at long longToo
    simp only [List.length_drop] at length
    apply matchesRow_iff.mpr
    exact ⟨by omega, same⟩

theorem matchesRow_equivalence (layout : KeyLayout) :
    Equivalence fun first second : { key : RowKey // key.layout = layout } =>
      first.1.matchesRow second.1.bytes = true := by
  refine ⟨fun key => matchesRow_iff.mpr ⟨rfl, rfl⟩, ?_, ?_⟩
  · rintro ⟨first, rfl⟩ ⟨second, layout⟩ matched
    rw [SameRow.matchesRow ⟨layout, matched⟩]
    exact matchesRow_iff.mpr ⟨rfl, rfl⟩
  · rintro ⟨first, rfl⟩ ⟨second, layout⟩ ⟨third, _⟩ matched onward
    rwa [SameRow.matchesRow ⟨layout, matched⟩] at onward

end RowKey

namespace Stepwise

/-- The bytes between two places, which must be in order and not behind the end. -/
def slice? (bytes : Bytes) (start stop : Nat) : Option Bytes :=
  if start ≤ stop ∧ stop ≤ bytes.length then some ((bytes.drop start).take (stop - start)) else none

def splitAt? (bytes : Bytes) (place : Nat) : Option (Bytes × Bytes) := do
  let front ← slice? bytes 0 place
  let rest ← slice? bytes place bytes.length
  some (front, rest)

def salt? (key : RowKey) : Option Bytes := slice? key.bytes 0 key.layout.salt.toNat

def metric? (key : RowKey) : Option Bytes := do
  slice? key.bytes key.layout.salt.toNat (← key.layout.baseTimeStart?).toNat

/-- Four bytes are copied, and there must be no more or less of them. -/
def baseTime? (key : RowKey) : Option UInt64 := do
  let start ← key.layout.baseTimeStart?
  let bytes ← slice? key.bytes start.toNat (← Word.sum? start 4).toNat
  if bytes.length = 4 then some (.ofNat (Bytes.toNat bytes)) else none

/-- So many pairs, split off one after the other. -/
def pairs? (first width : Nat) : Nat → Bytes → Option (List (Bytes × Bytes))
  | 0, _ => some []
  | count + 1, bytes => do
    let (pair, rest) ← splitAt? bytes width
    let pair ← splitAt? pair first
    let pairs ← pairs? first width count rest
    some (pair :: pairs)

def tags? (key : RowKey) : Option (List (Bytes × Bytes)) := do
  let width ← key.layout.pairWidth?
  if width = 0 then some []
  else
    let start ← key.layout.minLength?
    let bytes ← slice? key.bytes start.toNat key.bytes.length
    pairs? key.layout.tagKey.toNat width.toNat (bytes.length / width.toNat) bytes

/-- Bytes behind the salt are compared only if both have the same length. -/
def matchesRow? (key : RowKey) (other : Bytes) : Option Bool :=
  if other.length = key.bytes.length then do
    let theirs ← slice? other key.layout.salt.toNat other.length
    let own ← slice? key.bytes key.layout.salt.toNat key.bytes.length
    some (theirs == own)
  else some false

section Slices
variable {bytes : Bytes} {start stop : Nat}

theorem slice?_eq_some (ordered : start ≤ stop) (inside : stop ≤ bytes.length) :
    slice? bytes start stop = some ((bytes.drop start).take (stop - start)) := if_pos ⟨ordered, inside⟩

theorem slice?_rest (inside : start ≤ bytes.length) : slice? bytes start bytes.length = some (bytes.drop start) := by
  rw [slice?_eq_some inside (Nat.le_refl _), ← List.length_drop, List.take_length]

theorem splitAt?_eq_some (inside : start ≤ bytes.length) :
    splitAt? bytes start = some (bytes.take start, bytes.drop start) := by
  simp only [splitAt?, slice?_eq_some (Nat.zero_le start) inside, slice?_rest inside, Option.bind_eq_bind,
    Option.bind_some, List.drop_zero, Nat.sub_zero]

theorem pairs?_eq_some (first second : Nat) (bytes : Bytes) :
    pairs? first (first + second) (bytes.length / (first + second)) bytes = some (RowKey.pairs first second bytes) := by
  fun_induction RowKey.pairs first second bytes with
  | case1 bytes wide ih =>
    have more : bytes.length / (first + second) = (bytes.drop (first + second)).length / (first + second) + 1 := by
      rw [List.length_drop]
      exact Nat.div_eq_sub_div wide.1 wide.2
    have pair : splitAt? (bytes.take (first + second)) first =
        some (bytes.take first, (bytes.drop first).take second) := by
      rw [splitAt?_eq_some (by rw [List.length_take]; omega), List.take_take, List.drop_take,
        Nat.min_eq_left (by omega), Nat.add_sub_cancel_left]
    rw [more]
    simp only [pairs?, splitAt?_eq_some wide.2, pair, ih, Option.bind_eq_bind, Option.bind_some]
  | case2 bytes narrow =>
    have noPairs : bytes.length / (first + second) = 0 := by
      apply Nat.div_eq_zero_iff.mpr
      omega
    rw [noPairs, pairs?]

end Slices

/-- Every part of a key is found where it is looked for. -/
structure Reads (key : RowKey) : Prop where
  salt : salt? key = some key.salt
  metric : metric? key = some key.metric
  baseTime : baseTime? key = some key.baseTime
  tags : tags? key = some key.tags
  matchesRow : ∀ other, matchesRow? key other = some (key.matchesRow other)

theorem reads {key : RowKey} (addsUp : key.layout.AddsUp) : Reads key := by
  have long := key.admitted.long
  have front : key.layout.salt.toNat ≤ key.layout.baseTimeStart := Nat.le_add_right _ _
  have behind : key.layout.baseTimeStart + 4 = key.layout.minLength := rfl
  obtain ⟨stop, needed, stopPlace⟩ := KeyLayout.exists_minLength? addsUp.front
  obtain ⟨start, begun, startPlace⟩ := KeyLayout.exists_baseTimeStart? addsUp.front
  constructor
  · exact slice?_eq_some (Nat.zero_le _) (by omega)
  · simp only [metric?, begun, startPlace, Option.bind_eq_bind, Option.bind_some]
    rw [slice?_eq_some front (by omega), KeyLayout.baseTimeStart, Nat.add_sub_cancel_left]
    rfl
  · have time : Word.sum? start 4 = some stop := Word.sum?_eq_some_iff.mpr (by rw [startPlace, stopPlace]; rfl)
    have four : key.layout.minLength - key.layout.baseTimeStart = 4 := by omega
    simp only [baseTime?, begun, time, startPlace, stopPlace, slice?_eq_some (Nat.le.intro behind) long, four,
      Option.bind_eq_bind, Option.bind_some]
    rw [if_pos (by simp only [List.length_take, List.length_drop]; omega)]
    rfl
  · obtain ⟨width, summed, same⟩ := Word.exists_sum? addsUp.tag
    have pair : key.layout.pairWidth? = some width := summed
    simp only [tags?, pair, needed, stopPlace, slice?_rest long, Option.bind_eq_bind, Option.bind_some]
    split
    · next nothing =>
      rw [nothing, UInt64.toNat_zero] at same
      rw [RowKey.tags, RowKey.pairs, dif_neg (by omega)]
    · rw [same]
      exact pairs?_eq_some _ _ _
  · intro other
    unfold matchesRow?
    split
    · next same =>
      have inside : key.layout.salt.toNat ≤ key.bytes.length := by omega
      have insideToo : key.layout.salt.toNat ≤ other.length := by omega
      simp only [slice?_rest inside, slice?_rest insideToo, Option.bind_eq_bind, Option.bind_some, RowKey.matchesRow,
        beq_iff_eq.mpr same, Bool.true_and]
    · next different => rw [RowKey.matchesRow, beq_false_of_ne different, Bool.false_and]

end Stepwise

/-- A byte string that reaches past the base time is a key of the layout, and every other is refused for its length. The
parts of a key are all found within it and make it up. Byte strings match a key if they are keys with the same parts,
whatever their salts, so keys of a layout fall into rows. -/
theorem RowKey.keys_cut_without_loss {layout : KeyLayout} (addsUp : layout.AddsUp) (bytes : Bytes) :
    ((∃ key, ofBytes layout bytes = .ok key) ↔ layout.salt.toNat + layout.metric.toNat + 4 ≤ bytes.length) ∧
      (∀ cause, ofBytes layout bytes = .error cause →
        cause = .append (.shortKey bytes.length (layout.salt.toNat + layout.metric.toNat + 4))) ∧
      (∀ key, ofBytes layout bytes = .ok key →
        key.bytes = bytes ∧ key.layout = layout ∧ key.Cut ∧ Stepwise.Reads key ∧ key.tags? = some key.tags ∧
          ∀ other, key.matchesRow other = true ↔ ∃ own, ofBytes layout other = .ok own ∧ own.metric = key.metric ∧
            own.baseTime = key.baseTime ∧ own.tags = key.tags ∧ own.trailing = key.trailing) ∧
      Equivalence fun first second : { key : RowKey // key.layout = layout } =>
        first.1.matchesRow second.1.bytes = true := by
  refine ⟨?_, ?_, ?_, matchesRow_equivalence layout⟩
  · rw [ofBytes_isOk_iff]
    exact ⟨fun admits => admits.long, fun long => ⟨addsUp.front, long⟩⟩
  · intro cause refused
    exact ofBytes_error addsUp.front refused
  · intro key parsed
    obtain ⟨rfl, rfl⟩ := ofBytes_ok parsed
    exact ⟨rfl, rfl, key.cut, Stepwise.reads addsUp, tags?_of_addsUp addsUp, fun _ => matchesRow_iff_parts⟩

/-- A metric of no bytes, two pairs of tags, and part of a third. -/
theorem RowKey.keys_cut_without_loss_uneven :
    KeyLayout.AddsUp ⟨2, 0, 1, 2⟩ ∧
      ∃ key, ofBytes ⟨2, 0, 1, 2⟩ [7, 8, 0, 0, 1, 0, 1, 2, 3, 4, 5, 6, 9, 9] = .ok key ∧ key.Cut ∧ Stepwise.Reads key ∧
        key.baseTime = 256 ∧ key.tags? = some [([1], [2, 3]), ([4], [5, 6])] ∧ key.trailing = [9, 9] ∧
        key.matchesRow [0, 0, 0, 0, 1, 0, 1, 2, 3, 4, 5, 6, 9, 9] = true ∧
        ¬ ∃ own, ofBytes ⟨2, 0, 1, 2⟩ [7, 8, 0, 0, 1, 0, 1, 2, 3, 4, 5, 6, 9] = .ok own ∧ own.metric = key.metric ∧
          own.baseTime = key.baseTime ∧ own.tags = key.tags ∧ own.trailing = key.trailing := by
  have addsUp : KeyLayout.AddsUp ⟨2, 0, 1, 2⟩ := ⟨by decide, by decide⟩
  obtain ⟨accepted, _, parts, _⟩ := keys_cut_without_loss addsUp [7, 8, 0, 0, 1, 0, 1, 2, 3, 4, 5, 6, 9, 9]
  obtain ⟨key, parsed⟩ := accepted.mpr (by decide)
  obtain ⟨_, _, cut, reads, tags, matched⟩ := parts key parsed
  refine ⟨addsUp, key, parsed, cut, reads, ?_⟩
  rw [← matched, tags]
  cases parsed
  decide +kernel

end Rollup
