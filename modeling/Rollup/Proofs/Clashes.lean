import Mathlib.Data.Fintype.Card
import Rollup.Proofs.Routing

/-! Checking settings walks the names in the order of their bytes and stops at the first whose id was seen before. All
names before it have different ids, so the one it clashes with is the only one. A layout is looked at when there is no
clash, width by width. -/

namespace Rollup

namespace IdTable
variable {table : IdTable} {id : UInt8} {first second : String}

/-- Two different names have one id. -/
def Shares (table : IdTable) : Prop :=
  ∃ first second id, first ≠ second ∧ (first, id) ∈ table.entries ∧ (second, id) ∈ table.entries

/-- No name with the id of a smaller one comes before the second, and the first is the only smaller one with its id. -/
structure FirstClash (table : IdTable) (id : UInt8) (first second : String) : Prop where
  left : (first, id) ∈ table.entries
  right : (second, id) ∈ table.entries
  before : Text.Before first second
  alone : ∀ name, (name, id) ∈ table.entries → Text.Before name second → name = first
  least : ∀ smaller name own, (smaller, own) ∈ table.entries → (name, own) ∈ table.entries → Text.Before smaller name →
    name = second ∨ Text.Before second name

theorem nodup_names (table : IdTable) : (table.entries.map (·.1)).Nodup := by
  refine List.pairwise_map.mpr (table.sorted.imp ?_)
  rintro earlier later less same
  exact String.lt_irrefl _ (same ▸ less)

namespace FirstClash

theorem shares (clash : table.FirstClash id first second) : table.Shares := by
  refine ⟨first, second, id, ?_, clash.left, clash.right⟩
  rintro rfl
  exact String.lt_irrefl _ (Text.before_iff_lt.mp clash.before)

/-- There is no more than one first clash. -/
theorem unique {other : UInt8} {first' second' : String} (clash : table.FirstClash id first second)
    (clash' : table.FirstClash other first' second') : id = other ∧ first = first' ∧ second = second' := by
  have sameSecond : second = second' := by
    rcases clash'.least first second id clash.left clash.right clash.before with same | after
    · exact same
    rcases clash.least first' second' other clash'.left clash'.right clash'.before with same | before
    · exact same.symm
    exact absurd (Text.before_iff_lt.mp after) (String.lt_asymm (Text.before_iff_lt.mp before))
  subst sameSecond
  have sameId := congrArg Prod.snd (List.inj_on_of_nodup_map table.nodup_names clash.right clash'.right rfl)
  dsimp only at sameId
  subst sameId
  exact ⟨rfl, clash'.alone first clash.left clash.before, rfl⟩

end FirstClash

/-- The walk stops behind entries with different ids, at one whose id was among them. -/
private theorem exists_of_clashAfter {seen entries : List (String × UInt8)} (distinct : (seen.map (·.2)).Nodup)
    (found : clashAfter seen entries = some (id, first, second)) :
    ∃ front back, entries = front ++ (second, id) :: back ∧ (first, id) ∈ seen ++ front ∧
      ((seen ++ front).map (·.2)).Nodup := by
  induction entries generalizing seen with
  | nil => cases found
  | cons entry entries ih =>
    obtain ⟨name, own⟩ := entry
    unfold clashAfter at found
    split at found
    · next earlier other past =>
      cases found
      have same : other = id := by simpa using List.find?_some past
      subst same
      refine ⟨[], entries, rfl, ?_, ?_⟩ <;> rw [List.append_nil]
      · exact List.mem_of_find?_eq_some past
      · exact distinct
    · next unseen =>
      obtain ⟨front, back, rfl, left, apart⟩ := ih (nodup_ids_append distinct unseen) found
      rw [List.append_assoc, List.singleton_append] at left apart
      exact ⟨(name, own) :: front, back, rfl, left, apart⟩

theorem firstClash_of_clash? (found : table.clash? = some (id, first, second)) : table.FirstClash id first second := by
  have atFirst : (([] : List (String × UInt8)).map (·.2)).Nodup := List.nodup_nil
  obtain ⟨front, back, shape, left, apart⟩ := exists_of_clashAfter atFirst found
  rw [List.nil_append] at left apart
  have sorted := table.sorted
  rw [shape] at sorted
  obtain ⟨_, tail, across⟩ := List.pairwise_append.mp sorted
  have behind := (List.pairwise_cons.mp tail).1
  have inFront {name : String} {own : UInt8} (member : (name, own) ∈ table.entries) (before : name < second) :
      (name, own) ∈ front := by
    rw [shape] at member
    rcases List.mem_append.mp member with inside | later
    · exact inside
    rcases List.mem_cons.mp later with same | last
    · cases same
      exact absurd before (String.lt_irrefl _)
    · exact absurd before (String.lt_asymm (behind _ last))
  have alone {name smaller : String} {own : UInt8} (member : (name, own) ∈ front) (other : (smaller, own) ∈ front) :
      name = smaller :=
    congrArg Prod.fst (List.inj_on_of_nodup_map apart member other rfl)
  constructor
  · rw [shape]
    exact List.mem_append_left _ left
  · rw [shape]
    exact List.mem_append_right _ List.mem_cons_self
  · exact Text.before_iff_lt.mpr (across _ left _ List.mem_cons_self)
  · intro name member before
    exact alone (inFront member (Text.before_iff_lt.mp before)) left
  · intro smaller name own isSmaller isName less
    rw [Text.before_iff_lt] at less ⊢
    -- A name before the second would be one of the entries whose ids differ, and so would the smaller one.
    have notBefore : ¬ name < second := by
      intro before
      have same := alone (inFront isSmaller (String.lt_trans less before)) (inFront isName before)
      exact String.lt_irrefl _ (same ▸ less)
    rcases Decidable.em (name = second) with same | different
    · exact .inl same
    · exact .inr (Std.lt_of_le_of_ne (String.not_lt.mp notBefore) (Ne.symm different))

theorem shares_iff : table.Shares ↔ table.clash? ≠ none := by
  constructor
  · rintro ⟨first, second, id, different, left, right⟩ clear
    have same := List.inj_on_of_nodup_map (nodup_ids_of_clash? clear) left right rfl
    exact different (congrArg Prod.fst same)
  · intro clashes
    obtain ⟨⟨id, first, second⟩, found⟩ := Option.ne_none_iff_exists'.mp clashes
    exact (firstClash_of_clash? found).shares

theorem clash?_eq_some_iff : table.clash? = some (id, first, second) ↔ table.FirstClash id first second := by
  refine ⟨firstClash_of_clash?, fun clash => ?_⟩
  obtain ⟨⟨other, first', second'⟩, found⟩ := Option.ne_none_iff_exists'.mp (shares_iff.mp clash.shares)
  obtain ⟨rfl, rfl, rfl⟩ := clash.unique (firstClash_of_clash? found)
  exact found

/-- There are only so many ids. -/
theorem shares_of_length (crowded : 256 < table.entries.length) : table.Shares := by
  refine shares_iff.mpr fun clear => ?_
  have different : ((table.entries.map (·.2)).map UInt8.toFin).Nodup :=
    (nodup_ids_of_clash? clear).map fun _ _ => UInt8.toFin_inj.mp
  have few := different.length_le_card
  rw [List.length_map, List.length_map, Fintype.card_fin] at few
  exact Nat.not_lt.mpr few crowded

end IdTable

namespace KeyLayout
variable {layout : KeyLayout}

/-- The width of ids of a kind. -/
def width (layout : KeyLayout) : UidField → UInt64
  | .metric => layout.metric
  | .tagKey => layout.tagKey
  | .tagValue => layout.tagValue

/-- The first kind whose ids have no bytes. -/
def firstEmpty? (layout : KeyLayout) : Option UidField :=
  [.metric, .tagKey, .tagValue].find? fun field => layout.width field == 0

theorem validate_eq_firstEmpty? (layout : KeyLayout) :
    layout.validate = match layout.firstEmpty? with
      | some field => .error (.zeroWidth field)
      | none => .ok () := by
  by_cases metric : layout.metric = 0
  · simp [validate, firstEmpty?, width, metric]
  by_cases tagKey : layout.tagKey = 0
  · simp [validate, firstEmpty?, width, metric, tagKey]
  by_cases tagValue : layout.tagValue = 0 <;> simp [validate, firstEmpty?, width, metric, tagKey, tagValue]

theorem firstEmpty?_eq_none_iff : layout.firstEmpty? = none ↔ ∀ field, layout.width field ≠ 0 := by
  simp only [firstEmpty?, List.find?_eq_none, beq_iff_eq]
  refine ⟨fun wide field => wide field ?_, fun wide field _ => wide field⟩
  cases field <;> simp

theorem validate_ok_iff : layout.validate = .ok () ↔ ∀ field, layout.width field ≠ 0 := by
  rw [validate_eq_firstEmpty?, ← firstEmpty?_eq_none_iff]
  cases layout.firstEmpty? <;> simp

theorem validate_error_iff {error : ConfigError} :
    layout.validate = .error error ↔ ∃ field, layout.firstEmpty? = some field ∧ error = .zeroWidth field := by
  rw [validate_eq_firstEmpty?]
  cases layout.firstEmpty? <;> simp [eq_comm]

end KeyLayout

theorem Aggregator.name_injective : Function.Injective Aggregator.name := by
  intro first second same
  have found := first.ofName?_name
  rw [same, second.ofName?_name] at found
  exact (Option.some.inj found).symm

namespace Settings
variable {settings : Settings} {id : UInt8} {first second : String} {field : UidField}

theorem validate_of_not_shares (apart : ¬ settings.ids.Shares) : settings.validate = settings.layout.validate := by
  have clear : settings.ids.clash? = none := Decidable.of_not_not fun clashes => apart (IdTable.shares_iff.mpr clashes)
  simp only [validate, clear]

theorem validate_sharedId_iff :
    settings.validate = .error (.sharedId id first second) ↔ settings.ids.FirstClash id first second := by
  rw [← IdTable.clash?_eq_some_iff, validate]
  cases settings.ids.clash? with
  | none => simp [KeyLayout.validate_error_iff]
  | some clash => simp [Prod.ext_iff]

theorem exists_sharedId_iff :
    (∃ id first second, settings.validate = .error (.sharedId id first second)) ↔ settings.ids.Shares := by
  constructor
  · rintro ⟨id, first, second, refused⟩
    exact (validate_sharedId_iff.mp refused).shares
  · intro shares
    obtain ⟨⟨id, first, second⟩, found⟩ := Option.ne_none_iff_exists'.mp (IdTable.shares_iff.mp shares)
    exact ⟨id, first, second, validate_sharedId_iff.mpr (IdTable.firstClash_of_clash? found)⟩

/-- Whatever is said about the layout is said of a table without a clash. -/
theorem validate_eq_layout_iff {outcome : Except ConfigError Unit}
    (other : ∀ id first second, outcome ≠ .error (.sharedId id first second)) :
    settings.validate = outcome ↔ ¬ settings.ids.Shares ∧ settings.layout.validate = outcome := by
  by_cases shares : settings.ids.Shares
  · obtain ⟨id, first, second, refused⟩ := exists_sharedId_iff.mpr shares
    rw [refused]
    exact ⟨fun same => absurd same.symm (other id first second), fun both => absurd shares both.1⟩
  · rw [validate_of_not_shares shares, and_iff_right shares]

theorem validate_zeroWidth_iff : settings.validate = .error (.zeroWidth field) ↔
    ¬ settings.ids.Shares ∧ settings.layout.firstEmpty? = some field := by
  rw [validate_eq_layout_iff (by simp), KeyLayout.validate_error_iff]
  simp

theorem validate_ok_iff :
    settings.validate = .ok () ↔ ¬ settings.ids.Shares ∧ ∀ field, settings.layout.width field ≠ 0 := by
  rw [validate_eq_layout_iff (by simp), KeyLayout.validate_ok_iff]

/-- Settings are refused for a shared id just when two names have one, and it is the first clash that is reported. There is
one whenever there are more names than ids. Otherwise they are refused for the first width of zero, or accepted, and then
different aggregations have different ids. -/
theorem validate_finds_first (settings : Settings) :
    ((∃ id first second, settings.validate = .error (.sharedId id first second)) ↔ settings.ids.Shares) ∧
      (256 < settings.ids.entries.length → settings.ids.Shares) ∧
      (∀ id first second, settings.validate = .error (.sharedId id first second) ↔
        settings.ids.FirstClash id first second) ∧
      ((∃ field, settings.validate = .error (.zeroWidth field)) ↔
        ¬ settings.ids.Shares ∧ ∃ field, settings.layout.width field = 0) ∧
      (∀ field, settings.validate = .error (.zeroWidth field) ↔
        ¬ settings.ids.Shares ∧ settings.layout.firstEmpty? = some field) ∧
      (settings.validate = .ok () ↔ ¬ settings.ids.Shares ∧ ∀ field, settings.layout.width field ≠ 0) ∧
      (settings.validate = .ok () → ∀ first second id other, settings.idFor first = .ok id →
        settings.idFor second = .ok other → first ≠ second → id ≠ other) := by
  refine ⟨exists_sharedId_iff, IdTable.shares_of_length, fun _ _ _ => validate_sharedId_iff, ?_,
    fun _ => validate_zeroWidth_iff, validate_ok_iff, fun valid first second id other left right different => ?_⟩
  · simp only [validate_zeroWidth_iff, exists_and_left]
    rw [← Option.ne_none_iff_exists', Ne, KeyLayout.firstEmpty?_eq_none_iff]
    simp
  · exact idFor_ne valid left right (Aggregator.name_injective.ne different)

/-! In the first of these tables `avg` and `min` share an id too, but `max` is before `min`, and `sum` has two names before
it that share its own. The second has a name for each length up to 256. The third is clear, and so is its layout but for
two of the widths. -/

def tiedTwice : Settings :=
  { Settings.default with ids := .ofEntries [("sum", 5), ("min", 7), ("max", 5), ("count", 5), ("avg", 7)] }

private theorem replicate_lt {short long : Nat} (less : short < long) (c : Char) :
    String.ofList (List.replicate short c) < String.ofList (List.replicate long c) := by
  obtain ⟨more, rfl⟩ := Nat.exists_eq_add_of_lt less
  have longer : List.replicate short c ++ [] < List.replicate short c ++ List.replicate (more + 1) c :=
    List.append_left_lt (List.nil_lt_cons c _)
  rw [List.append_nil, List.replicate_append_replicate, ← Nat.add_assoc] at longer
  change (String.ofList _).toList < (String.ofList _).toList
  rwa [String.toList_ofList, String.toList_ofList]

def crowded : Settings :=
  { Settings.default with
    ids := {
      entries := (List.range 257).map fun length => (String.ofList (List.replicate length 'a'), UInt8.ofNat length)
      sorted := List.pairwise_map.mpr (List.pairwise_lt_range.imp fun less => replicate_lt less 'a') } }

def untagged : Settings := { Settings.default with layout := ⟨0, 3, 0, 0⟩ }

theorem validate_finds_first_each :
    tiedTwice.ids.FirstClash 5 "count" "max" ∧
      256 < crowded.ids.entries.length ∧ crowded.ids.Shares ∧
      ¬ untagged.ids.Shares ∧ untagged.layout.firstEmpty? = some .tagKey ∧
      Settings.default.validate = .ok () ∧ Settings.default.idFor .sum = .ok 0 ∧ Settings.default.idFor .count = .ok 1 ∧
      (0 : UInt8) ≠ 1 := by
  have many : 256 < crowded.ids.entries.length := by
    rw [crowded, List.length_map, List.length_range]
    decide
  have tied : tiedTwice.validate = .error (.sharedId 5 "count" "max") := rfl
  have refused : untagged.validate = .error (.zeroWidth .tagKey) := rfl
  have valid : Settings.default.validate = .ok () := rfl
  obtain ⟨_, _, clashes, _⟩ := validate_finds_first tiedTwice
  obtain ⟨_, crowds, _⟩ := validate_finds_first crowded
  obtain ⟨_, _, _, _, empties, _⟩ := validate_finds_first untagged
  obtain ⟨_, _, _, _, _, _, distinct⟩ := validate_finds_first Settings.default
  obtain ⟨clear, empty⟩ := (empties .tagKey).mp refused
  exact ⟨(clashes 5 "count" "max").mp tied, many, crowds many, clear, empty, valid, rfl, rfl,
    distinct valid .sum .count 0 1 rfl rfl (by decide)⟩

end Settings

end Rollup
