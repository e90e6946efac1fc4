import Rollup.Json.Printer
import Rollup.Json.Reader
import Rollup.Json.Record
import Rollup.Settings

/-! Settings in JSON. Every field may be absent and then has its default. -/

namespace Rollup

def KeyLayout.toJson (layout : KeyLayout) : Json :=
  .record
    [("salt_width", .ofNat layout.salt.toNat), ("metric_width", .ofNat layout.metric.toNat),
      ("tagk_width", .ofNat layout.tagKey.toNat), ("tagv_width", .ofNat layout.tagValue.toNat)]

def KeyLayout.ofJson? (value : Json) : Option KeyLayout :=
  let width? (absent : UInt64) := Json.orDefault absent Json.word?
  match value.fields? ["salt_width", "metric_width", "tagk_width", "tagv_width"] with
  | some [salt, metric, tagKey, tagValue] =>
    match width? 0 salt, width? 3 metric, width? 3 tagKey, width? 3 tagValue with
    | some salt, some metric, some tagKey, some tagValue => some ⟨salt, metric, tagKey, tagValue⟩
    | _, _, _, _ => none
  | _ => none

def IdTable.toJson (table : IdTable) : Json :=
  .record (table.entries.map fun entry => (entry.1, .ofNat entry.2.toNat))

def IdTable.ofJson? (value : Json) : Option IdTable :=
  (value.entries? Json.byte?).map IdTable.ofEntries

namespace Settings

def toJson (settings : Settings) : Json :=
  .record
    [("aggregator_ids", settings.ids.toJson), ("key_layout", settings.layout.toJson),
      ("fix_duplicates", .bool settings.fixDuplicates),
      ("resolution", .ofString settings.resolution.name)]

def ofJson? (value : Json) : Option Settings :=
  match value.fields? ["aggregator_ids", "key_layout", "fix_duplicates", "resolution"] with
  | some [ids, layout, fixDuplicates, resolution] =>
    match Json.orDefault defaultIds IdTable.ofJson? ids,
        Json.orDefault {} KeyLayout.ofJson? layout,
        Json.orDefault false Json.bool? fixDuplicates,
        Json.orDefault .milliseconds (Json.choice? Resolution.ofName?) resolution with
    | some ids, some layout, some fixDuplicates, some resolution =>
      some ⟨ids, layout, fixDuplicates, resolution⟩
    | _, _, _, _ => none
  | _ => none

/-- The text that a settings file holds. -/
def save (settings : Settings) : String := settings.toJson.prettyText

/-- Settings from the text of the file at `path`, and only valid ones. -/
def load (path : String) (content? : Option String) : Except ConfigError Settings :=
  match content? with
  | none => .error (.unreadable path)
  | some content =>
    match (Json.parse? content).bind ofJson? with
    | none => .error (.malformed path)
    | some settings =>
      match settings.validate with
      | .error cause => .error cause
      | .ok () => .ok settings

end Settings

end Rollup
