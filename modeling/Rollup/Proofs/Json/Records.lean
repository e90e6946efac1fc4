import Rollup.Json.Record

/-! Records, read back. From the object that was made of fields with different names, each field is read as what was
written for it. -/

namespace Rollup.Json

section Fields
variable {members : List (String × Json)}

private theorem occurrences_le (distinct : (members.map (·.1)).Nodup) (name : String) :
    occurrences name (members.map fun member => (some member.1, member.2)) ≤ 1 := by
  have counted : occurrences name (members.map fun member => (some member.1, member.2)) =
      (members.map (·.1)).count name := by
    rw [occurrences, List.countP_map, List.count, List.countP_map]
    rfl
  rw [counted]
  exact List.nodup_iff_count.mp distinct name

private theorem find?_member (distinct : (members.map (·.1)).Nodup) {member : String × Json}
    (present : member ∈ members) :
    (members.map fun member => (some member.1, member.2)).find? (fun other => other.1 == some member.1) =
      some (some member.1, member.2) := by
  induction members with
  | nil => cases present
  | cons first members ih =>
    obtain ⟨other, distinct⟩ := List.nodup_cons.mp distinct
    rcases List.mem_cons.mp present with rfl | later
    · rw [List.map_cons, List.find?_cons_of_pos (by simp)]
    · have different : first.1 ≠ member.1 := fun same => other (List.mem_map.mpr ⟨member, later, same.symm⟩)
      rw [List.map_cons, List.find?_cons_of_neg (by simpa using different), ih distinct later]

/-- The fields of a record, in the order in which they were written. -/
theorem fields?_record {names : List String} (named : members.map (·.1) = names) (distinct : names.Nodup) :
    (record members).fields? names = some (members.map fun member => some member.2) := by
  subst named
  have content : (members.map fun member => (some member.1, member.2)).all (·.1.isSome) = true := by
    simp
  have once : (members.map (·.1)).all (fun name =>
      decide (occurrences name (members.map fun member => (some member.1, member.2)) ≤ 1)) = true :=
    List.all_eq_true.mpr fun name _ => decide_eq_true (occurrences_le distinct name)
  rw [record, fields?, if_pos (by rw [content, once]; rfl), List.map_map]
  refine congrArg some (List.map_congr_left fun member present => ?_)
  rw [Function.comp_apply, find?_member distinct present, Option.map_some]

end Fields

section Collections
variable {α β γ : Type}

/-- Items are read in order, each as its image. -/
theorem mapM_map {write : α → β} {read? : β → Option γ} {image : α → γ}
    (back : ∀ item, read? (write item) = some (image item)) (items : List α) :
    (items.map write).mapM read? = some (items.map image) := by
  have composed : read? ∘ write = fun item => some (image item) := funext back
  rw [List.mapM_map, composed]
  exact List.mapM_pure

theorem list?_array {write : α → Json} {item? : Json → Option β} {image : α → β}
    (back : ∀ item, item? (write item) = some (image item)) (items : List α) :
    (Json.array (items.map write)).list? item? = some (items.map image) :=
  mapM_map back items

/-- A list of items that are each read back is read back. -/
theorem list?_array_self {write : α → Json} {item? : Json → Option α} (back : ∀ item, item? (write item) = some item)
    (items : List α) : (Json.array (items.map write)).list? item? = some items :=
  (list?_array back items).trans (congrArg some (List.map_id items))

/-- Items that are each read back are read back under their names. -/
theorem entries?_record {write : α → Json} {item? : Json → Option α} (back : ∀ item, item? (write item) = some item)
    (entries : List (String × α)) :
    (record (entries.map fun entry => (entry.1, write entry.2))).entries? item? = some entries := by
  rw [record, List.map_map]
  refine (mapM_map (fun entry => ?_) entries).trans (congrArg some (List.map_id entries))
  simp only [Function.comp_apply, back, Option.map_some, id_eq]

end Collections

end Rollup.Json
