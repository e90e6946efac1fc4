import Rollup.Json.Settings
import Rollup.Proofs.Json.Records
import Rollup.Proofs.Json.Texts

/-! Settings, saved and loaded. The saved text holds the same settings, and loading it gives them back if they are
valid and what is wrong with them otherwise. -/

namespace Rollup

attribute [ext] IdTable

namespace IdTable

variable {name : String} {id : UInt8}

private theorem insertEntry_last {entries : List (String × UInt8)} (before : ∀ entry ∈ entries, entry.1 < name) :
    insertEntry name id entries = entries ++ [(name, id)] := by
  induction entries with
  | nil => rfl
  | cons entry entries ih =>
    obtain ⟨first, others⟩ := List.forall_mem_cons.mp before
    rw [insertEntry, if_neg (String.lt_asymm first), if_pos first, ih others, List.cons_append]

/-- Entries in order are inserted one behind the other. -/
private theorem entries_foldl {entries : List (String × UInt8)} (table : IdTable)
    (sorted : (table.entries ++ entries).Pairwise fun first second => first.1 < second.1) :
    (entries.foldl (fun table entry => table.insert entry.1 entry.2) table).entries = table.entries ++ entries := by
  induction entries generalizing table with
  | nil => rw [List.foldl_nil, List.append_nil]
  | cons entry entries ih =>
    have before : ∀ other ∈ table.entries, other.1 < entry.1 := fun other member =>
      (List.pairwise_append.mp sorted).2.2 other member entry List.mem_cons_self
    have inserted : (table.insert entry.1 entry.2).entries = table.entries ++ [entry] := insertEntry_last before
    have shape : table.entries ++ entry :: entries = (table.insert entry.1 entry.2).entries ++ entries := by
      rw [inserted, List.append_assoc, List.singleton_append]
    rw [shape] at sorted ⊢
    exact ih _ sorted

theorem ofEntries_entries (table : IdTable) : ofEntries table.entries = table :=
  IdTable.ext (entries_foldl empty table.sorted)

theorem ofJson?_toJson (table : IdTable) : ofJson? table.toJson = some table := by
  rw [ofJson?, toJson, Json.entries?_record Json.byte?_ofNat, Option.map_some, ofEntries_entries]

theorem printable_toJson (table : IdTable) : Json.Printable table.toJson := by
  refine .record fun member present => ?_
  obtain ⟨entry, _, rfl⟩ := List.mem_map.mp present
  exact .ofNat _

end IdTable

namespace KeyLayout

theorem ofJson?_toJson (layout : KeyLayout) : ofJson? layout.toJson = some layout := by
  have fields : layout.toJson.fields? ["salt_width", "metric_width", "tagk_width", "tagv_width"] =
      some [some (.ofNat layout.salt.toNat), some (.ofNat layout.metric.toNat), some (.ofNat layout.tagKey.toNat),
        some (.ofNat layout.tagValue.toNat)] :=
    Json.fields?_record rfl (by decide)
  simp only [ofJson?, fields, Json.orDefault, Json.word?_ofNat]

theorem printable_toJson (layout : KeyLayout) : Json.Printable layout.toJson :=
  .record <| by simp [Json.Printable.ofNat]

end KeyLayout

namespace Settings

theorem choice?_resolution (resolution : Resolution) :
    (Json.ofString resolution.name).choice? Resolution.ofName? = some resolution := by
  cases resolution <;> rfl

theorem ofJson?_toJson (settings : Settings) : ofJson? settings.toJson = some settings := by
  have fields : settings.toJson.fields? ["aggregator_ids", "key_layout", "fix_duplicates", "resolution"] =
      some [some settings.ids.toJson, some settings.layout.toJson, some (.bool settings.fixDuplicates),
        some (.ofString settings.resolution.name)] :=
    Json.fields?_record rfl (by decide)
  simp only [ofJson?, fields, Json.orDefault, IdTable.ofJson?_toJson, KeyLayout.ofJson?_toJson, Json.bool?,
    choice?_resolution]

theorem printable_toJson (settings : Settings) : Json.Printable settings.toJson := by
  refine .record ?_
  simp only [List.forall_mem_cons, List.not_mem_nil, false_implies, implies_true, and_true]
  exact ⟨settings.ids.printable_toJson, settings.layout.printable_toJson, .bool _, .text _⟩

/-- Saved settings are loaded if they are valid; otherwise loading fails for the reason that checking them gives. -/
theorem load_save (path : String) (settings : Settings) :
    load path (some settings.save) = settings.validate.map fun _ => settings := by
  have read : (Json.parse? settings.save).bind ofJson? = some settings := by
    have parsed := settings.printable_toJson.parse?_prettyText "" (by decide)
    rw [String.append_empty] at parsed
    rw [save, parsed, Option.bind_some, ofJson?_toJson]
  simp only [load, read]
  cases settings.validate <;> rfl

/-! Names that need escapes, and widths as large as they can be. With different ids the settings are loaded; with one
id for both names they are refused, after the same text has been read. -/

def oddSettings (id : UInt8) : Settings :=
  ⟨.ofEntries [("\x07\"\\", 9), ("é", id)], ⟨.ofNat Word.largest, 1, 1, .ofNat Word.largest⟩, true, .seconds⟩

theorem load_save_odd :
    load "settings.json" (some (oddSettings 200).save) = .ok (oddSettings 200) ∧
      load "settings.json" (some (oddSettings 9).save) = .error (.sharedId 9 "\x07\"\\" "é") :=
  ⟨load_save "settings.json" (oddSettings 200), load_save "settings.json" (oddSettings 9)⟩

end Settings

end Rollup
