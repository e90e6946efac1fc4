import Mathlib.Data.List.Nodup
import Rollup.Proofs.FieldCodec
import Rollup.Proofs.Utf8
import Rollup.RowBuilder

/-! Which stream a qualifier is routed to. An id decides alone; a name is matched in any ASCII case, unless
its first byte is an id already. In checked settings no two aggregations share an id. -/

namespace Rollup

namespace Bytes

theorem startsWith_append {start bytes : Bytes} (rest : Bytes) (same : bytes.map lowerByte = start.map lowerByte) :
    startsWith start (bytes ++ rest) = true := by
  induction start generalizing bytes with
  | nil => rfl
  | cons first start ih =>
    cases bytes with
    | nil => cases same
    | cons byte bytes =>
      obtain ⟨head, tail⟩ := List.cons.inj same
      simp only [List.cons_append, startsWith, head, ih tail, beq_self_eq_true, Bool.and_self]

end Bytes

namespace Qualifier

private theorem lowerByte_code (code : Fin 128) :
    (Bytes.lowerByte (UInt8.ofNat code)).toNat = (Char.ofNat code).toLower.toNat := by
  revert code
  decide

/-- Lowering the byte of an ASCII character lowers the character. -/
theorem lowerByte_ascii {c : Char} (ascii : c.toNat < 128) :
    (Bytes.lowerByte (UInt8.ofNat c.toNat)).toNat = c.toLower.toNat := by
  have letter := lowerByte_code ⟨c.toNat, ascii⟩
  rwa [Char.ofNat_toNat] at letter

private theorem ascii_of_toLower {c : Char} (lower : c.toLower.toNat < 128) : c.toNat < 128 := by
  unfold Char.toLower at lower
  split at lower
  · next capital =>
    have last : c.toNat ≤ 90 := capital.2
    omega
  · exact lower

private theorem lower_char {c : Char} (lower : c.toLower.toNat < 128) :
    (String.utf8EncodeChar c).map Bytes.lowerByte = [UInt8.ofNat c.toLower.toNat] := by
  have ascii := ascii_of_toLower lower
  rw [Text.utf8EncodeChar_ascii ascii, ← lowerByte_ascii ascii, UInt8.ofNat_toNat, List.map_singleton]

theorem lower_legacyName {name : String} (ascii : ∀ c ∈ name.toList.map Char.toLower, c.toNat < 128) :
    (legacyName name).map Bytes.lowerByte =
      ((name.toList.map Char.toLower).map fun c => UInt8.ofNat c.toNat) ++ [58] := by
  rw [legacyName, Text.toUTF8_toList, List.map_append]
  refine congrArg (· ++ [58]) ?_
  generalize name.toList = letters at ascii
  induction letters with
  | nil => rfl
  | cons c rest ih =>
    have first : c.toLower.toNat < 128 := ascii c.toLower (by simp)
    have later : (rest.flatMap String.utf8EncodeChar).map Bytes.lowerByte =
        (rest.map Char.toLower).map fun c => UInt8.ofNat c.toNat := by
      apply ih
      intro d member
      exact ascii d (List.mem_cons_of_mem _ member)
    rw [List.flatMap_cons, List.map_append, lower_char first, later]
    rfl

theorem name_ascii (aggregator : Aggregator) : ∀ c ∈ aggregator.name.toList, c.toNat < 128 := by
  have all : (aggregator.name.toList.all fun c => c.toNat < 128) = true := by cases aggregator <;> decide
  simpa only [List.all_eq_true, decide_eq_true_eq] using all

theorem name_lower (aggregator : Aggregator) :
    aggregator.name.toList.map Char.toLower = aggregator.name.toList := by
  cases aggregator <;> decide

theorem lower_spelled {name : String} {aggregator : Aggregator}
    (spelled : name.toList.map Char.toLower = aggregator.name.toList) :
    (legacyName name).map Bytes.lowerByte = (legacyName aggregator.name).map Bytes.lowerByte := by
  have ascii := name_ascii aggregator
  have lower := name_lower aggregator
  rw [lower_legacyName (by rw [spelled]; exact ascii), lower_legacyName (by rw [lower]; exact ascii), spelled, lower]

theorem length_spelled {name : String} {aggregator : Aggregator}
    (spelled : name.toList.map Char.toLower = aggregator.name.toList) :
    (legacyName name).length = (legacyName aggregator.name).length := by
  simpa only [List.length_map] using congrArg List.length (lower_spelled spelled)

/-- A count's name never passes for a sum's. -/
theorem not_startsWith_sum {name : String} (spelled : name.toList.map Char.toLower = Aggregator.count.name.toList)
    (rest : Bytes) : Bytes.startsWith (legacyName Aggregator.sum.name) (legacyName name ++ rest) = false := by
  have lower := lower_spelled spelled
  have sum : legacyName Aggregator.sum.name = [115, 117, 109, 58] := by decide
  have count : legacyName Aggregator.count.name = [99, 111, 117, 110, 116, 58] := by decide
  rw [sum]
  rw [count] at lower
  cases bytes : legacyName name with
  | nil =>
    rw [bytes] at lower
    cases lower
  | cons first others =>
    rw [bytes] at lower
    have head : Bytes.lowerByte first = Bytes.lowerByte 99 := (List.cons.inj lower).1
    have different : (Bytes.lowerByte 115 == Bytes.lowerByte 99) = false := by decide
    simp only [List.cons_append, Bytes.startsWith, head, different, Bool.false_and]

theorem read_current (id : UInt8) (field : Field) :
    Field.read (current id field) Encoding.current.fieldStart = .ok field := by
  have read := Field.read_append [id] [] field
  rwa [List.append_nil] at read

theorem read_legacy (name : String) (field : Field) :
    Field.read (legacy name field) (Encoding.legacy (legacyName name).length).fieldStart = .ok field := by
  have read := Field.read_append (legacyName name) [] field
  rwa [List.append_nil] at read

end Qualifier

namespace Selection

variable {selection : Selection} {field : Field}

def Takes (selection : Selection) (id : UInt8) : Prop := id = selection.primaryId ∨ selection.countId? = some id

theorem classify_primary (selection : Selection) (rest : Bytes) :
    selection.classify (selection.primaryId :: rest) = .ok ⟨.value, .current⟩ := by
  simp only [classify, List.head?_cons, if_true]

theorem classify_countId {id : UInt8} (counted : selection.countId? = some id) (different : id ≠ selection.primaryId)
    (rest : Bytes) : selection.classify (id :: rest) = .ok ⟨.count, .current⟩ := by
  simp only [classify, List.head?_cons, Option.some.injEq, different, if_false, Selection.counted, counted,
    Option.isSome_some, and_self, if_true]

theorem head?_append {front : Bytes} (nonempty : front ≠ []) (rest : Bytes) :
    (front ++ rest).head? = front.head? := by
  cases front with
  | nil => exact absurd rfl nonempty
  | cons byte front => rfl

theorem legacyName_ne_nil (name : String) : Qualifier.legacyName name ≠ [] := by
  simp [Qualifier.legacyName]

theorem id_tests_fail {name : String}
    (free : ∀ first ∈ (Qualifier.legacyName name).head?, ¬ selection.Takes first) (rest : Bytes) :
    (Qualifier.legacyName name ++ rest).head? ≠ some selection.primaryId ∧
      ¬ (selection.counted = true ∧ (Qualifier.legacyName name ++ rest).head? = selection.countId?) := by
  rw [head?_append (legacyName_ne_nil name)]
  constructor
  · intro same
    exact free _ same (.inl rfl)
  · rintro ⟨counted, same⟩
    obtain ⟨id, present⟩ := Option.isSome_iff_exists.mp counted
    rw [present] at same
    exact free id same (.inr present)

theorem classify_primary_name {name : String}
    (spelled : name.toList.map Char.toLower = selection.primary.name.toList)
    (free : ∀ first ∈ (Qualifier.legacyName name).head?, ¬ selection.Takes first) (rest : Bytes) :
    selection.classify (Qualifier.legacyName name ++ rest) =
      .ok ⟨.value, .legacy (Qualifier.legacyName name).length⟩ := by
  obtain ⟨notPrimary, notCount⟩ := id_tests_fail free rest
  have found := Bytes.startsWith_append rest (Qualifier.lower_spelled spelled)
  simp only [classify, notPrimary, notCount, found, Qualifier.length_spelled spelled, if_true, if_false]

theorem classify_count_name {name : String} (sums : selection.primary = .sum) (counted : selection.counted = true)
    (spelled : name.toList.map Char.toLower = Aggregator.count.name.toList)
    (free : ∀ first ∈ (Qualifier.legacyName name).head?, ¬ selection.Takes first) (rest : Bytes) :
    selection.classify (Qualifier.legacyName name ++ rest) =
      .ok ⟨.count, .legacy (Qualifier.legacyName name).length⟩ := by
  obtain ⟨notPrimary, notCount⟩ := id_tests_fail free rest
  have found := Bytes.startsWith_append rest (Qualifier.lower_spelled spelled)
  have notSum := Qualifier.not_startsWith_sum spelled rest
  unfold classify
  simp only [sums]
  rw [if_neg notPrimary, if_neg notCount, if_neg (by rw [notSum]; decide), if_pos ⟨counted, found⟩,
    Qualifier.length_spelled spelled]

end Selection

namespace IdTable

/-- An entry whose id was not seen yet keeps the ids different. -/
theorem nodup_ids_append {seen : List (String × UInt8)} {name : String} {id : UInt8} (distinct : (seen.map (·.2)).Nodup)
    (unseen : (seen.find? fun entry => entry.2 == id) = none) : ((seen ++ [(name, id)]).map (·.2)).Nodup := by
  have fresh : id ∉ seen.map (·.2) := by
    intro member
    obtain ⟨entry, past, rfl⟩ := List.mem_map.mp member
    simpa using List.find?_eq_none.mp unseen entry past
  rw [List.map_append, List.map_singleton, ← List.concat_eq_append]
  exact distinct.concat fresh

private theorem nodup_ids_of_clashAfter {seen entries : List (String × UInt8)} (distinct : (seen.map (·.2)).Nodup)
    (clear : clashAfter seen entries = none) : ((seen ++ entries).map (·.2)).Nodup := by
  induction entries generalizing seen with
  | nil => rwa [List.append_nil]
  | cons entry entries ih =>
    unfold clashAfter at clear
    split at clear
    · cases clear
    · next unseen =>
      rw [← List.singleton_append, ← List.append_assoc]
      exact ih (nodup_ids_append distinct unseen) clear

theorem nodup_ids_of_clash? {table : IdTable} (clear : table.clash? = none) : (table.entries.map (·.2)).Nodup := by
  have atFirst : (([] : List (String × UInt8)).map (·.2)).Nodup := List.nodup_nil
  exact nodup_ids_of_clashAfter atFirst clear

theorem mem_of_find? {table : IdTable} {name : String} {id : UInt8} (found : table.find? name = some id) :
    (name, id) ∈ table.entries := by
  obtain ⟨⟨other, own⟩, isEntry, rfl⟩ := Option.map_eq_some_iff.mp found
  have same : other = name := by simpa using List.find?_some isEntry
  rw [← same]
  exact List.mem_of_find?_eq_some isEntry

theorem find?_injective {table : IdTable} {first second : String} {id : UInt8} (clear : table.clash? = none)
    (left : table.find? first = some id) (right : table.find? second = some id) : first = second := by
  have same := List.inj_on_of_nodup_map (nodup_ids_of_clash? clear) (mem_of_find? left) (mem_of_find? right) rfl
  exact congrArg Prod.fst same

end IdTable

namespace Settings

variable {settings : Settings}

theorem idFor_ok {aggregator : Aggregator} {id : UInt8} (configured : settings.idFor aggregator = .ok id) :
    settings.ids.find? aggregator.name = some id := by
  unfold Settings.idFor at configured
  split at configured
  · next own found =>
    cases configured
    exact found
  · cases configured

theorem idFor_of_find? {aggregator : Aggregator} {id : UInt8} (found : settings.ids.find? aggregator.name = some id) :
    settings.idFor aggregator = .ok id := by
  simp only [Settings.idFor, found]

theorem clash?_of_validate (valid : settings.validate = .ok ()) : settings.ids.clash? = none := by
  unfold Settings.validate at valid
  split at valid
  · cases valid
  · next clear => exact clear

theorem idFor_ne {first second : Aggregator} {id other : UInt8} (valid : settings.validate = .ok ())
    (left : settings.idFor first = .ok id) (right : settings.idFor second = .ok other)
    (different : first.name ≠ second.name) : id ≠ other := by
  rintro rfl
  exact different (IdTable.find?_injective (clash?_of_validate valid) (idFor_ok left) (idFor_ok right))

end Settings

end Rollup
