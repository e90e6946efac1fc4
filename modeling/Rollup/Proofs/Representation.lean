import Rollup.Proofs.Traversal

/-! The two byte buffers of a stream, its last offset and its last write are the packed form of its
ledger at all times. Offsets go up, so the buffers are bounded and a saved word has room for both
positions. -/

namespace Rollup

/-- How the packed stream goes with the entries stored in it. -/
structure StreamBuilder.Represents (builder : StreamBuilder) (stored : List Entry) : Prop where
  fields : builder.cells.fields = stored.flatMap fun entry => entry.field.bytes
  fieldSize : ∀ entry ∈ stored, entry.field.bytes.length = 2
  increasing : stored.Pairwise fun first second => first.field.offset < second.field.offset
  widths : ∀ entry ∈ stored,
    match entry.field.kind with
    | .integer => 1 ≤ entry.field.width ∧ entry.field.width ≤ 8
    | .float => entry.field.width = 4 ∨ entry.field.width = 8
  length : builder.cells.payloads.length = (stored.map fun entry => entry.field.width).sum
  payloads : CellStream.cut (stored.map Entry.field) builder.cells.payloads =
    stored.map fun entry => entry.column.value
  lastOffset : builder.lastOffset? = stored.getLast?.map fun last => last.field.offset
  untouched : builder.lastOffset? = none ↔ builder.cells = .empty
  lastWritten : ∀ last ∈ stored.getLast?, builder.lastWritten = last.column.timestamp

namespace StreamBuilder

theorem holding_represents {stored : List Entry} (increasing : Increasing (stored.map Entry.cell)) :
    (holding stored).Represents stored := by
  have fields : (stored.map Entry.cell).map Cell.field = stored.map Entry.field := by
    rw [List.map_map]
    rfl
  constructor
  · simp only [holding, CellStream.pack, List.flatMap_map]
    rfl
  · intro entry _
    exact entry.field.length_bytes
  · unfold Increasing at increasing
    rw [List.pairwise_map] at increasing
    exact increasing
  · intro entry _
    have allowed := entry.cell.allowed
    simp only [Entry.cell] at allowed
    split
    · next integer =>
      rw [integer] at allowed
      simpa [Field.allowsWidth] using allowed
    · next float =>
      rw [float] at allowed
      simpa [Field.allowsWidth] using allowed
  · simp only [holding, CellStream.length_payloads_pack, List.map_map]
    rfl
  · simp only [holding, CellStream.pack]
    rw [← fields, CellStream.cut_payloads, List.map_map]
    rfl
  · rfl
  · rcases List.eq_nil_or_concat stored with rfl | ⟨front, last, rfl⟩
    · exact ⟨fun _ => rfl, fun _ => rfl⟩
    · rw [List.concat_eq_append]
      have size := CellStream.length_fields_pack ((front ++ [last]).map Entry.cell)
      constructor
      · intro unwritten
        simp [holding] at unwritten
      · intro empty
        simp only [holding] at empty
        rw [empty] at size
        simp [CellStream.empty, Field.size] at size
  · intro last member
    simp [holding, Option.mem_def.mp member]

theorem holding_bounded {stored : List Entry} (increasing : Increasing (stored.map Entry.cell)) :
    (holding stored).cells.size ≤ 4096 ∧ (holding stored).cells.fields.length ≤ 8192 ∧
      (holding stored).cells.payloads.length ≤ 32768 := by
  have cells := increasing.length_le
  have fields := CellStream.length_fields_pack (stored.map Entry.cell)
  have payloads := CellStream.length_payloads_pack_le (stored.map Entry.cell)
  have size := CellStream.size_pack (stored.map Entry.cell)
  unfold Field.size at fields
  simp only [holding]
  omega

end StreamBuilder

namespace RowBuilder

/-- However columns were fed to a new builder, each stream is the packed form of the accepted columns
that are stored in it. The buffers are bounded, so every cursor of the frozen row fits into a word. -/
theorem feedAll_represents {query : Query} {settings : Settings} {start : RowBuilder}
    (created : create query settings = .ok start) (feeds : List Feed) :
    (∀ kind,
      ((start.feedAll feeds).stream kind).Represents (start.selection.ledger kind (start.accepted feeds)) ∧
        (∀ entry ∈ start.selection.ledger kind (start.accepted feeds), entry.column ∈ start.accepted feeds ∧
          start.selection.entry entry.column = .ok (kind, entry)) ∧
        ((start.feedAll feeds).stream kind).cells.size ≤ 4096 ∧
        ((start.feedAll feeds).stream kind).cells.fields.length ≤ 8192 ∧
        ((start.feedAll feeds).stream kind).cells.payloads.length ≤ 32768) ∧
      ∀ row, (start.feedAll feeds).freeze = .ok row → ∀ cursor, Cursor.Reachable row cursor →
        cursor.values.field < Cursor.half ∧ cursor.values.payload < Cursor.half ∧
          cursor.save.toNat / Cursor.half = cursor.values.field ∧
          cursor.save.toNat % Cursor.half = cursor.values.payload := by
  have holds := feedAll_holds created feeds
  refine ⟨?_, ?_⟩
  · intro kind
    rw [holds.stream kind]
    refine ⟨StreamBuilder.holding_represents (holds.increasing kind), ?_,
      StreamBuilder.holding_bounded (holds.increasing kind)⟩
    intro entry member
    exact Selection.mem_ledger member
  · intro row frozen cursor reached
    obtain ⟨place, stands, _⟩ := reached.stands (holds.freeze frozen)
    obtain ⟨field, payload⟩ := Gap.position_lt_half stands.sound.values
    rw [← stands.valuesAt] at field payload
    exact ⟨field, payload, Cursor.save_halves field payload⟩

theorem feedAll_represents_gappy :
    create Gappy.query .default = .ok Gappy.start ∧
      (Gappy.start.feedAll Gappy.feeds).values.Represents
        (Gappy.start.selection.ledger .value (Gappy.start.accepted Gappy.feeds)) ∧
      (Gappy.start.selection.ledger .value (Gappy.start.accepted Gappy.feeds)).map (fun entry => entry.column.value) =
        [[7], [1, 0], [9]] ∧
      (Gappy.start.feedAll Gappy.feeds).freeze = .ok Gappy.row ∧
      ∀ cursor, Cursor.Reachable Gappy.row cursor →
        cursor.values.field < Cursor.half ∧ cursor.values.payload < Cursor.half := by
  obtain ⟨streams, words⟩ := feedAll_represents Gappy.created Gappy.feeds
  refine ⟨Gappy.created, (streams .value).1, by decide +kernel, rfl, ?_⟩
  intro cursor reached
  obtain ⟨field, payload, _⟩ := words Gappy.row rfl cursor reached
  exact ⟨field, payload⟩

end RowBuilder

end Rollup
