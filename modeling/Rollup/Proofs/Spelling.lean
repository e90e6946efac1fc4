import Rollup.Proofs.Traversal
import Rollup.Proofs.Written

/-! What becomes of qualifiers as they are written. A name without a colon passes for an aggregation's name only if it
is that name in some ASCII case, and a lone id is too short to pass for a name. So each qualifier goes to the stream
that it names or is refused, and its field is read back. -/

namespace Rollup

namespace Bytes

theorem length_le_of_startsWith {start bytes : Bytes} (starts : startsWith start bytes = true) :
    start.length ≤ bytes.length := by
  induction start generalizing bytes with
  | nil => exact Nat.zero_le _
  | cons first start ih =>
    cases bytes with
    | nil => cases starts
    | cons byte bytes =>
      rw [startsWith, Bool.and_eq_true] at starts
      exact Nat.succ_le_succ (ih starts.2)

end Bytes

namespace Qualifier

/-- A small letter, or another ASCII character that has no case. -/
def Small (letter : Char) : Prop := letter.toNat < 128 ∧ letter.toLower = letter

private theorem lower_small {letter : Char} (small : Small letter) :
    (Bytes.lowerByte (UInt8.ofNat letter.toNat)).toNat = letter.toNat := by
  rw [lowerByte_ascii small.1, small.2]

/-- A character that passes for a small letter is that letter in some case. -/
private theorem toLower_of_startsWith {letter c : Char} {start rest : Bytes} (small : Small letter)
    (starts : Bytes.startsWith (UInt8.ofNat letter.toNat :: start) (String.utf8EncodeChar c ++ rest) = true) :
    c.toLower = letter ∧ Bytes.startsWith start rest = true := by
  have lowered := lower_small small
  by_cases ascii : c.toNat < 128
  · have lower := lowerByte_ascii ascii
    rw [Text.utf8EncodeChar_ascii ascii, List.singleton_append, Bytes.startsWith, Bool.and_eq_true, beq_iff_eq] at starts
    refine ⟨Char.toNat_inj.mp ?_, starts.2⟩
    rw [← lower, ← starts.1, lowered]
  · obtain ⟨first, _, _, encoded, wide, _⟩ := Text.utf8EncodeChar_wide ascii
    rw [encoded, List.cons_append, Bytes.startsWith, Bool.and_eq_true, beq_iff_eq] at starts
    have unchanged : Bytes.lowerByte first = first := if_neg (by omega)
    rw [starts.1, unchanged] at lowered
    have narrow := small.1
    omega

private theorem eq_colon_of_toLower {c : Char} (lower : c.toLower = ':') : c = ':' := by
  unfold Char.toLower at lower
  split at lower
  · next capital =>
    have code : (c.val + 32).toNat = 58 := congrArg Char.toNat lower
    have first : 65 ≤ c.val.toNat := UInt32.le_iff_toNat_le.mp capital.1
    have last : c.val.toNat ≤ 90 := UInt32.le_iff_toNat_le.mp capital.2
    have moved : (32 : UInt32).toNat = 32 := rfl
    rw [UInt32.toNat_add, moved] at code
    omega
  · exact lower

/-- A name without a colon, with one behind it, begins like small letters with a colon behind them only if it is those
letters in some case. -/
private theorem toLower_of_startsWith_colon {letters chars : List Char} (small : ∀ letter ∈ letters, Small letter)
    (lettersColonless : ':' ∉ letters) (colonless : ':' ∉ chars) {rest : Bytes}
    (starts : Bytes.startsWith ((letters.map fun letter => UInt8.ofNat letter.toNat) ++ [58])
      (chars.flatMap String.utf8EncodeChar ++ [58] ++ rest) = true) : chars.map Char.toLower = letters := by
  have colon : Small ':' := by unfold Small; decide
  induction letters generalizing chars with
  | nil =>
    cases chars with
    | nil => rfl
    | cons c chars =>
      rw [List.flatMap_cons, List.append_assoc, List.append_assoc] at starts
      have same := eq_colon_of_toLower (toLower_of_startsWith colon starts).1
      exact absurd (same ▸ List.mem_cons_self) colonless
  | cons letter letters ih =>
    have first := small letter List.mem_cons_self
    cases chars with
    | nil =>
      have same : ':' = letter := (@toLower_of_startsWith letter ':' _ rest first starts).1
      exact absurd (same ▸ List.mem_cons_self) lettersColonless
    | cons c chars =>
      rw [List.flatMap_cons, List.append_assoc, List.append_assoc] at starts
      obtain ⟨lower, onward⟩ := toLower_of_startsWith first starts
      rw [← List.append_assoc] at onward
      rw [List.map_cons, lower, ih (fun other member => small other (List.mem_cons_of_mem _ member))
        (fun member => lettersColonless (List.mem_cons_of_mem _ member))
        (fun member => colonless (List.mem_cons_of_mem _ member)) onward]

private theorem small_name (aggregator : Aggregator) : ∀ letter ∈ aggregator.name.toList, Small letter := by
  intro letter member
  have lower : aggregator.name.toList.map Char.toLower = aggregator.name.toList.map id := by
    rw [name_lower, List.map_id]
  exact ⟨name_ascii aggregator letter member, List.map_inj_left.mp lower letter member⟩

private theorem legacyName_letters (aggregator : Aggregator) :
    ':' ∉ aggregator.name.toList ∧
      legacyName aggregator.name = (aggregator.name.toList.map fun letter => UInt8.ofNat letter.toNat) ++ [58] := by
  cases aggregator <;> decide

theorem startsWith_legacyName_iff {name : String} (colonless : ':' ∉ name.toList) (aggregator : Aggregator)
    (rest : Bytes) :
    Bytes.startsWith (legacyName aggregator.name) (legacyName name ++ rest) = true ↔
      name.toList.map Char.toLower = aggregator.name.toList := by
  obtain ⟨lettersColonless, letters⟩ := legacyName_letters aggregator
  constructor
  · intro starts
    rw [letters, legacyName, Text.toUTF8_toList] at starts
    exact toLower_of_startsWith_colon (small_name aggregator) lettersColonless colonless starts
  · intro spelled
    exact Bytes.startsWith_append rest (lower_spelled spelled)

/-- An aggregation's name is longer than an id and a field. -/
private theorem startsWith_current (aggregator : Aggregator) (id : UInt8) (field : Field) :
    Bytes.startsWith (legacyName aggregator.name) (current id field) = false := by
  have long : 3 < (legacyName aggregator.name).length := by cases aggregator <;> decide
  have short : (current id field).length = 3 := rfl
  rw [Bool.eq_false_iff]
  intro starts
  have fits := Bytes.length_le_of_startsWith starts
  omega

end Qualifier

namespace Selection

/-- What becomes of a qualifier: it goes to the stream that wants it, it is refused where neither does, and wherever
it goes its field is found. -/
structure Routed (selection : Selection) (qualifier : Bytes) (field : Field) (wanted : StreamKind → Prop) : Prop where
  stream : ∀ kind, (∃ encoding, selection.classify qualifier = .ok ⟨kind, encoding⟩) ↔ wanted kind
  refused : (∀ kind, ¬ wanted kind) →
    selection.classify qualifier = .error (.foreignQualifier qualifier selection.primary selection.counted)
  read : ∀ route, selection.classify qualifier = .ok route →
    Field.read qualifier route.encoding.fieldStart = .ok field

variable {selection : Selection} {qualifier : Bytes} {field : Field} {wanted : StreamKind → Prop}

private theorem Routed.of_taken {kind : StreamKind} {encoding : Encoding}
    (taken : selection.classify qualifier = .ok ⟨kind, encoding⟩)
    (read : Field.read qualifier encoding.fieldStart = .ok field) (own : wanted kind)
    (others : ∀ other, wanted other → other = kind) : Routed selection qualifier field wanted := by
  refine ⟨?_, fun unwanted => absurd own (unwanted kind), ?_⟩
  · intro other
    constructor
    · rintro ⟨_, routed⟩
      rw [taken] at routed
      cases routed
      exact own
    · intro asked
      cases others other asked
      exact ⟨encoding, taken⟩
  · intro route routed
    rw [taken] at routed
    cases routed
    exact read

private theorem Routed.of_refused
    (refused : selection.classify qualifier =
      .error (.foreignQualifier qualifier selection.primary selection.counted))
    (unwanted : ∀ kind, ¬ wanted kind) : Routed selection qualifier field wanted := by
  refine ⟨?_, fun _ => refused, ?_⟩
  · intro kind
    refine ⟨?_, fun asked => absurd asked (unwanted kind)⟩
    rintro ⟨_, routed⟩
    rw [refused] at routed
    cases routed
  · intro route routed
    rw [refused] at routed
    cases routed

theorem classify_foreign_id {id : UInt8} (free : ¬ selection.Takes id) (field : Field) :
    selection.classify (Qualifier.current id field) =
      .error (.foreignQualifier (Qualifier.current id field) selection.primary selection.counted) := by
  have first : (Qualifier.current id field).head? = some id := rfl
  have notPrimary : ¬ some id = some selection.primaryId := fun same => free (.inl (Option.some.inj same))
  have notCount : ¬ (selection.counted = true ∧ some id = selection.countId?) := fun same => free (.inr same.2.symm)
  simp only [classify, first, notPrimary, notCount, Qualifier.startsWith_current, and_false, if_false,
    Bool.false_eq_true]

theorem classify_foreign_name {name : String} (colonless : ':' ∉ name.toList)
    (free : ∀ first ∈ (Qualifier.legacyName name).head?, ¬ selection.Takes first)
    (notPrimary : name.toList.map Char.toLower ≠ selection.primary.name.toList)
    (notCount : selection.counted = true → name.toList.map Char.toLower ≠ Aggregator.count.name.toList)
    (field : Field) :
    selection.classify (Qualifier.legacy name field) =
      .error (.foreignQualifier (Qualifier.legacy name field) selection.primary selection.counted) := by
  obtain ⟨noPrimaryId, noCountId⟩ := id_tests_fail free field.bytes
  have noPrimary := mt (Qualifier.startsWith_legacyName_iff colonless selection.primary field.bytes).mp notPrimary
  have noCount : ¬ (selection.counted = true ∧
      Bytes.startsWith (Qualifier.legacyName Aggregator.count.name)
        (Qualifier.legacyName name ++ field.bytes) = true) := by
    rintro ⟨counted, starts⟩
    exact notCount counted ((Qualifier.startsWith_legacyName_iff colonless .count field.bytes).mp starts)
  unfold classify Qualifier.legacy
  rw [if_neg noPrimaryId, if_neg noCountId, if_neg noPrimary, if_neg noCount]

end Selection

namespace RowBuilder

/-- The stream of a query's rows that takes an id under the given settings. -/
def WantsId (query : Query) (settings : Settings) (id : UInt8) : StreamKind → Prop
  | .value => settings.idFor query.aggregator.stored = .ok id
  | .count => query.aggregator.needsCount = true ∧ settings.idFor .count = .ok id

/-- The stream of a query's rows that takes a name. -/
def WantsName (query : Query) (name : String) : StreamKind → Prop
  | .value => name.toList.map Char.toLower = query.aggregator.stored.name.toList
  | .count => query.aggregator.needsCount = true ∧ name.toList.map Char.toLower = Aggregator.count.name.toList

variable {query : Query} {settings : Settings} {selection : Selection}

theorem stored_ne_count (needs : query.aggregator.needsCount = true) :
    query.aggregator.stored.name ≠ Aggregator.count.name := by
  have sums : query.aggregator.stored = .sum := if_pos needs
  rw [sums]
  decide

private theorem routed_current (valid : settings.validate = .ok ()) (selected : select query settings = .ok selection)
    (id : UInt8) (field : Field) :
    selection.Routed (Qualifier.current id field) field (WantsId query settings id) := by
  obtain ⟨_, primary, _, count⟩ := select_ok selected
  have read := Qualifier.read_current id field
  have apart (needs : query.aggregator.needsCount = true) (second : settings.idFor .count = .ok id) :
      id ≠ selection.primaryId :=
    (Settings.idFor_ne valid primary second (stored_ne_count needs)).symm
  by_cases isPrimary : id = selection.primaryId
  · subst isPrimary
    refine .of_taken (selection.classify_primary _) read primary ?_
    rintro (_ | _) asked
    · rfl
    · exact absurd rfl (apart asked.1 asked.2)
  · have notValue : ¬ WantsId query settings id .value := by
      intro asked
      exact isPrimary (Except.ok.inj (asked.symm.trans primary))
    by_cases isCount : selection.countId? = some id
    · refine .of_taken (Selection.classify_countId isCount isPrimary _) read ((count id).mp isCount) ?_
      rintro (_ | _) asked
      · exact absurd asked notValue
      · rfl
    · refine .of_refused (Selection.classify_foreign_id (not_or.mpr ⟨isPrimary, isCount⟩) field) ?_
      rintro (_ | _) asked
      · exact notValue asked
      · exact isCount ((count id).mpr asked)

private theorem routed_legacy (selected : select query settings = .ok selection) {name : String}
    (colonless : ':' ∉ name.toList)
    (free : ∀ first ∈ (Qualifier.legacyName name).head?, ¬ settings.Takes query first) (field : Field) :
    selection.Routed (Qualifier.legacy name field) field (WantsName query name) := by
  obtain ⟨stored, _, counted, _⟩ := select_ok selected
  have read := Qualifier.read_legacy name field
  have notTaken : ∀ first ∈ (Qualifier.legacyName name).head?, ¬ selection.Takes first := by
    intro first member taken
    exact free first member (takes_of_select selected taken)
  by_cases isPrimary : WantsName query name .value
  · have spelled : name.toList.map Char.toLower = selection.primary.name.toList := by rw [stored]; exact isPrimary
    refine .of_taken (Selection.classify_primary_name spelled notTaken _) read isPrimary ?_
    rintro (_ | _) asked
    · rfl
    · exact absurd (String.toList_inj.mp (isPrimary.symm.trans asked.2)) (stored_ne_count asked.1)
  · by_cases isCount : WantsName query name .count
    · have sums : query.aggregator.stored = .sum := if_pos isCount.1
      refine .of_taken (Selection.classify_count_name (stored.trans sums) (counted.trans isCount.1) isCount.2
        notTaken _) read isCount ?_
      rintro (_ | _) asked
      · exact absurd asked isPrimary
      · rfl
    · refine .of_refused (Selection.classify_foreign_name colonless notTaken ?_ ?_ field) ?_
      · rw [stored]
        exact isPrimary
      · intro needs spelled
        exact isCount ⟨counted.symm.trans needs, spelled⟩
      · rintro (_ | _) asked
        · exact isPrimary asked
        · exact isCount asked

/-- Whatever a builder was fed, a lone id and a name each go to the stream that wants them or are refused, and the
field behind them is read back. A name whose first byte is taken as an id would be read as that id. -/
theorem written_qualifiers_routed {start : RowBuilder} (valid : settings.validate = .ok ())
    (created : create query settings = .ok start) (feeds : List Feed) (field : Field) :
    (∀ id, (start.feedAll feeds).selection.Routed (Qualifier.current id field) field (WantsId query settings id)) ∧
      ∀ name : String, ':' ∉ name.toList →
        (∀ first ∈ (Qualifier.legacy name field).head?, ¬ settings.Takes query first) →
          (start.feedAll feeds).selection.Routed (Qualifier.legacy name field) field (WantsName query name) := by
  obtain ⟨selected, _⟩ := create_ok created
  rw [(feedAll_holds created feeds).selection]
  refine ⟨fun id => routed_current valid selected id field, ?_⟩
  intro name colonless free
  refine routed_legacy selected colonless ?_ field
  rwa [Qualifier.legacy, Selection.head?_append (Selection.legacyName_ne_nil name)] at free

/-- In a row of averages the id 9 and the name `summa` are refused, and `CoUnT` names a count. -/
theorem written_qualifiers_routed_gappy :
    (Gappy.start.feedAll Gappy.feeds).selection.classify (Qualifier.current 9 ⟨16⟩) =
        .error (.foreignQualifier [9, 0, 16] .sum true) ∧
      (∃ encoding, (Gappy.start.feedAll Gappy.feeds).selection.classify (Qualifier.legacy "CoUnT" ⟨16⟩) =
        .ok ⟨.count, encoding⟩) ∧
      (Gappy.start.feedAll Gappy.feeds).selection.classify (Qualifier.legacy "summa" ⟨16⟩) =
        .error (.foreignQualifier (Qualifier.legacy "summa" ⟨16⟩) .sum true) := by
  have valid : Settings.default.validate = .ok () := rfl
  obtain ⟨ids, names⟩ := written_qualifiers_routed valid Gappy.created Gappy.feeds ⟨16⟩
  have free {name : String} {first : UInt8} (starts : (Qualifier.legacy name ⟨16⟩).head? = some first)
      (other : first ≠ 0 ∧ first ≠ 1) :
      ∀ byte ∈ (Qualifier.legacy name ⟨16⟩).head?, ¬ Settings.default.Takes Gappy.query byte := by
    intro byte member
    rw [starts] at member
    cases member
    rintro (sum | ⟨-, count⟩)
    · exact other.1 (Except.ok.inj sum).symm
    · exact other.2 (Except.ok.inj count).symm
  refine ⟨(ids 9).refused ?_, ((names "CoUnT" (by decide) (free rfl (by decide))).stream .count).mpr ⟨rfl, by decide⟩,
    (names "summa" (by decide) (free rfl (by decide))).refused ?_⟩
  · rintro (_ | _) <;> unfold WantsId <;> decide
  · rintro (_ | _) <;> unfold WantsName <;> decide

end RowBuilder

end Rollup
