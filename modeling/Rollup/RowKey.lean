import Rollup.Error
import Rollup.Word

/-! Row keys: a salt, a metric id, a base time of four bytes, and pairs of tag ids. A layout gives
the widths; a key is a byte string that reaches past the base time. Widths are words, and nothing
bounds their sums: the sums are checked, and the program stops at one that is no word. (Built without
these checks it goes on with the sum's low bits, which is not described here.) -/

namespace Rollup

structure KeyLayout where
  salt : UInt64 := 0
  metric : UInt64 := 3
  tagKey : UInt64 := 3
  tagValue : UInt64 := 3
  deriving DecidableEq, Repr

namespace KeyLayout

/-- Ids of no bytes are refused; a salt of no bytes is no salt. -/
def validate (layout : KeyLayout) : Except ConfigError Unit :=
  if layout.metric = 0 then .error (.zeroWidth .metric)
  else if layout.tagKey = 0 then .error (.zeroWidth .tagKey)
  else if layout.tagValue = 0 then .error (.zeroWidth .tagValue)
  else .ok ()

def baseTimeStart (layout : KeyLayout) : Nat := layout.salt.toNat + layout.metric.toNat

def minLength (layout : KeyLayout) : Nat := layout.baseTimeStart + 4

def baseTimeStart? (layout : KeyLayout) : Option UInt64 := Word.sum? layout.salt layout.metric

def minLength? (layout : KeyLayout) : Option UInt64 :=
  match layout.baseTimeStart? with
  | none => none
  | some start => Word.sum? start 4

def pairWidth? (layout : KeyLayout) : Option UInt64 := Word.sum? layout.tagKey layout.tagValue

theorem baseTimeStart?_eq_some_iff {layout : KeyLayout} {start : UInt64} :
    layout.baseTimeStart? = some start ↔ start.toNat = layout.baseTimeStart := Word.sum?_eq_some_iff

theorem exists_baseTimeStart? {layout : KeyLayout} (word : layout.minLength ≤ Word.largest) :
    ∃ start, layout.baseTimeStart? = some start ∧ start.toNat = layout.baseTimeStart :=
  Word.exists_sum? (Nat.le_trans (Nat.le_add_right _ 4) word)

theorem minLength?_eq_some_iff {layout : KeyLayout} {needed : UInt64} :
    layout.minLength? = some needed ↔ needed.toNat = layout.minLength := by
  unfold minLength? minLength
  split
  · next failed =>
    have wide : Word.largest < layout.baseTimeStart := Word.sum?_eq_none_iff.mp failed
    have small := Word.toNat_le_largest needed
    constructor
    · rintro ⟨⟩
    · omega
  · next start found =>
    rw [Word.sum?_eq_some_iff, baseTimeStart?_eq_some_iff.mp found]
    rfl

theorem minLength?_eq_none_iff {layout : KeyLayout} : layout.minLength? = none ↔ Word.largest < layout.minLength := by
  unfold minLength? minLength
  split
  · next failed =>
    have wide : Word.largest < layout.baseTimeStart := Word.sum?_eq_none_iff.mp failed
    simp only [true_iff]
    omega
  · next start found =>
    rw [Word.sum?_eq_none_iff, baseTimeStart?_eq_some_iff.mp found]
    rfl

theorem exists_minLength? {layout : KeyLayout} (word : layout.minLength ≤ Word.largest) :
    ∃ needed, layout.minLength? = some needed ∧ needed.toNat = layout.minLength := by
  cases summed : layout.minLength? with
  | none => exact absurd word (Nat.not_le.mpr (minLength?_eq_none_iff.mp summed))
  | some needed => exact ⟨needed, rfl, minLength?_eq_some_iff.mp summed⟩

/-- The bytes reach past the base time, whose end is a word. -/
structure Admits (layout : KeyLayout) (bytes : Bytes) : Prop where
  word : layout.minLength ≤ Word.largest
  long : layout.minLength ≤ bytes.length

instance (layout : KeyLayout) (bytes : Bytes) : Decidable (layout.Admits bytes) :=
  decidable_of_iff (layout.minLength ≤ Word.largest ∧ layout.minLength ≤ bytes.length)
    ⟨fun both => ⟨both.1, both.2⟩, fun admits => ⟨admits.word, admits.long⟩⟩

theorem Admits.of_minLength? {layout : KeyLayout} {bytes : Bytes} {needed : UInt64}
    (summed : layout.minLength? = some needed) (long : needed.toNat ≤ bytes.length) : layout.Admits bytes := by
  have same := minLength?_eq_some_iff.mp summed
  exact ⟨same ▸ Word.toNat_le_largest needed, same ▸ long⟩

end KeyLayout

structure RowKey where
  bytes : Bytes
  layout : KeyLayout
  admitted : layout.Admits bytes
  deriving DecidableEq

namespace RowKey

def ofBytes (layout : KeyLayout) (bytes : Bytes) : Except Error RowKey :=
  match summed : layout.minLength? with
  | none => .error .overflow
  | some needed =>
    if long : needed.toNat ≤ bytes.length then .ok ⟨bytes, layout, .of_minLength? summed long⟩
    else .error (.append (.shortKey bytes.length needed.toNat))

/-- The widths are added up first, so an overflow comes before a short key. -/
theorem ofBytes_eq (layout : KeyLayout) (bytes : Bytes) :
    ofBytes layout bytes =
      if admits : layout.Admits bytes then .ok ⟨bytes, layout, admits⟩
      else if layout.minLength ≤ Word.largest then .error (.append (.shortKey bytes.length layout.minLength))
      else .error .overflow := by
  unfold ofBytes
  split
  · next failed =>
    have wide : ¬ layout.minLength ≤ Word.largest := Nat.not_le.mpr (KeyLayout.minLength?_eq_none_iff.mp failed)
    rw [dif_neg fun admits => wide admits.word, if_neg wide]
  · next needed summed =>
    have same := KeyLayout.minLength?_eq_some_iff.mp summed
    have word : layout.minLength ≤ Word.largest := same ▸ Word.toNat_le_largest needed
    by_cases long : needed.toNat ≤ bytes.length
    · rw [dif_pos long, dif_pos (.of_minLength? summed long)]
    · have short : ¬ layout.Admits bytes := fun admits => long (same.symm ▸ admits.long)
      rw [dif_neg long, dif_neg short, if_pos word, same]

theorem ofBytes_of_admits {layout : KeyLayout} {bytes : Bytes} (admits : layout.Admits bytes) :
    ofBytes layout bytes = .ok ⟨bytes, layout, admits⟩ := by
  rw [ofBytes_eq, dif_pos admits]

theorem ofBytes_of_not_admits {layout : KeyLayout} {bytes : Bytes} (refused : ¬ layout.Admits bytes) :
    ∃ cause, ofBytes layout bytes = .error cause := by
  rw [ofBytes_eq, dif_neg refused]
  split <;> exact ⟨_, rfl⟩

theorem ofBytes_ok {layout : KeyLayout} {bytes : Bytes} {key : RowKey} (parsed : ofBytes layout bytes = .ok key) :
    key.layout = layout ∧ key.bytes = bytes := by
  rw [ofBytes_eq] at parsed
  split at parsed
  · cases parsed
    exact ⟨rfl, rfl⟩
  · split at parsed <;> cases parsed

theorem ofBytes_error {layout : KeyLayout} {bytes : Bytes} {cause : Error}
    (word : layout.minLength ≤ Word.largest) (refused : ofBytes layout bytes = .error cause) :
    cause = .append (.shortKey bytes.length layout.minLength) := by
  rw [ofBytes_eq, if_pos word] at refused
  split at refused <;> cases refused
  rfl

def salt (key : RowKey) : Bytes := key.bytes.take key.layout.salt.toNat

def metric (key : RowKey) : Bytes :=
  (key.bytes.drop key.layout.salt.toNat).take key.layout.metric.toNat

/-- Seconds of Unix time. -/
def baseTime (key : RowKey) : UInt64 :=
  UInt64.ofNat (Bytes.toNat ((key.bytes.drop key.layout.baseTimeStart).take 4))

/-- Whole pairs at the front of `bytes`; what is left over is no pair. -/
def pairs (first second : Nat) (bytes : Bytes) : List (Bytes × Bytes) :=
  if _wide : 0 < first + second ∧ first + second ≤ bytes.length then
    (bytes.take first, (bytes.drop first).take second) ::
      pairs first second (bytes.drop (first + second))
  else []
termination_by bytes.length
decreasing_by simp only [List.length_drop]; omega

/-- The pairs as their exact width cuts them. -/
def tags (key : RowKey) : List (Bytes × Bytes) :=
  pairs key.layout.tagKey.toNat key.layout.tagValue.toNat (key.bytes.drop key.layout.minLength)

/-- The pairs, whose width is added up first. A key is not refused for it, so the program can still stop here. -/
def tags? (key : RowKey) : Option (List (Bytes × Bytes)) :=
  match key.layout.pairWidth? with
  | none => none
  | some _ => some key.tags

/-- Whether a byte string is the key of the same row, the salt aside. -/
def matchesRow (key : RowKey) (other : Bytes) : Bool :=
  other.length == key.bytes.length &&
    other.drop key.layout.salt.toNat == key.bytes.drop key.layout.salt.toNat

def text (key : RowKey) : String := "RowKey(" ++ Bytes.listed key.bytes ++ ")"

end RowKey

end Rollup
