import Rollup.Aggregator

/-! A table of aggregation ids: names, each with the id byte that its cells carry. Names are in
increasing order, so a table has one entry for a name and one way to be written. -/

namespace Rollup

structure IdTable where
  entries : List (String × UInt8)
  sorted : entries.Pairwise fun first second => first.1 < second.1
  deriving DecidableEq

namespace IdTable

def empty : IdTable := ⟨[], .nil⟩

def insertEntry (name : String) (id : UInt8) : List (String × UInt8) → List (String × UInt8)
  | [] => [(name, id)]
  | (other, old) :: rest =>
    if name < other then (name, id) :: (other, old) :: rest
    else if other < name then (other, old) :: insertEntry name id rest
    else (name, id) :: rest

theorem mem_insertEntry {name : String} {id : UInt8} {entries : List (String × UInt8)}
    {entry : String × UInt8} (member : entry ∈ insertEntry name id entries) :
    entry = (name, id) ∨ entry ∈ entries := by
  induction entries with
  | nil => simpa [insertEntry] using member
  | cons head rest ih =>
    obtain ⟨other, old⟩ := head
    unfold insertEntry at member
    split at member
    · simpa using member
    · split at member
      · rcases List.mem_cons.1 member with rfl | later
        · simp
        · rcases ih later with same | old
          · exact .inl same
          · exact .inr (List.mem_cons_of_mem _ old)
      · rcases List.mem_cons.1 member with same | later
        · exact .inl same
        · exact .inr (List.mem_cons_of_mem _ later)

theorem sorted_insertEntry (name : String) (id : UInt8) {entries : List (String × UInt8)}
    (sorted : entries.Pairwise fun first second => first.1 < second.1) :
    (insertEntry name id entries).Pairwise fun first second => first.1 < second.1 := by
  induction entries with
  | nil => simp [insertEntry]
  | cons head rest ih =>
    obtain ⟨other, old⟩ := head
    obtain ⟨before, tail⟩ := List.pairwise_cons.1 sorted
    unfold insertEntry
    split
    · next less =>
      refine List.pairwise_cons.2 ⟨fun entry member => ?_, sorted⟩
      rcases List.mem_cons.1 member with rfl | later
      · exact less
      · exact String.lt_trans less (before entry later)
    · next notLess =>
      split
      · next greater =>
        refine List.pairwise_cons.2 ⟨fun entry member => ?_, ih tail⟩
        rcases mem_insertEntry member with rfl | later
        · exact greater
        · exact before entry later
      · next notGreater =>
        have same : name = other :=
          String.le_antisymm (String.not_lt.1 notGreater) (String.not_lt.1 notLess)
        subst same
        exact List.pairwise_cons.2 ⟨before, tail⟩

/-- The table with an id for a name, in place of an earlier one. -/
def insert (table : IdTable) (name : String) (id : UInt8) : IdTable :=
  ⟨insertEntry name id table.entries, sorted_insertEntry name id table.sorted⟩

/-- Of entries with the same name the last one counts. -/
def ofEntries (entries : List (String × UInt8)) : IdTable :=
  entries.foldl (fun table entry => table.insert entry.1 entry.2) empty

def find? (table : IdTable) (name : String) : Option UInt8 :=
  (table.entries.find? fun entry => entry.1 == name).map (·.2)

/-- The first entry whose id an earlier one has, with that earlier one's name before its own. -/
def clashAfter (seen : List (String × UInt8)) :
    List (String × UInt8) → Option (UInt8 × String × String)
  | [] => none
  | (name, id) :: rest =>
    match seen.find? fun entry => entry.2 == id with
    | some (first, _) => some (id, first, name)
    | none => clashAfter (seen ++ [(name, id)]) rest

def clash? (table : IdTable) : Option (UInt8 × String × String) := clashAfter [] table.entries

end IdTable

end Rollup
