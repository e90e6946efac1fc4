import Rollup.Field

/-! A field is two bytes, so fields stored one after the other are read back by position and as a
list. Whatever the writer packs into a field comes out of its accessors. -/

namespace Rollup.Field

@[simp] theorem length_bytes (field : Field) : field.bytes.length = size :=
  Bytes.length_ofNat size field.raw.toNat

private theorem bytes_eq_pair (field : Field) :
    field.bytes = [UInt8.ofNat (field.raw.toNat / 256), UInt8.ofNat (field.raw.toNat % 256)] := by
  have bound := field.raw.toNat_lt
  have small : field.raw.toNat / 256 % 256 = field.raw.toNat / 256 := by omega
  simp only [bytes, size, Bytes.ofNat, List.nil_append, List.cons_append, small]

private theorem ofNat_of_bytes (field : Field) :
    UInt16.ofNat ((UInt8.ofNat (field.raw.toNat / 256)).toNat * 256 +
      (UInt8.ofNat (field.raw.toNat % 256)).toNat) = field.raw := by
  have bound := field.raw.toNat_lt
  rw [UInt8.toNat_ofNat', UInt8.toNat_ofNat']
  have whole : field.raw.toNat / 256 % 2 ^ 8 * 256 + field.raw.toNat % 256 % 2 ^ 8 = field.raw.toNat := by
    omega
  rw [whole, UInt16.ofNat_toNat]

private theorem bytes_of_pair (high low : UInt8) :
    bytes ⟨UInt16.ofNat (high.toNat * 256 + low.toNat)⟩ = [high, low] := by
  have highBound := high.toNat_lt
  have lowBound := low.toNat_lt
  have raw : (UInt16.ofNat (high.toNat * 256 + low.toNat)).toNat = high.toNat * 256 + low.toNat := by
    rw [UInt16.toNat_ofNat']
    omega
  have first : (high.toNat * 256 + low.toNat) / 256 = high.toNat := by omega
  have second : (high.toNat * 256 + low.toNat) % 256 = low.toNat := by omega
  rw [bytes_eq_pair, raw, first, second, UInt8.ofNat_toNat, UInt8.ofNat_toNat]

/-- A field is read where it was written, whatever stands before and behind it. -/
theorem at?_append (before after : Bytes) (field : Field) :
    at? (before ++ field.bytes ++ after) before.length = some field := by
  simp only [at?, List.append_assoc, List.drop_left, bytes_eq_pair, List.cons_append, List.nil_append,
    ofNat_of_bytes]

theorem list_bytes_append (field : Field) (rest : Bytes) :
    list (field.bytes ++ rest) = field :: list rest := by
  simp only [bytes_eq_pair, List.cons_append, List.nil_append, list, ofNat_of_bytes]

@[simp] theorem list_flatMap_bytes (fields : List Field) : list (fields.flatMap bytes) = fields := by
  induction fields with
  | nil => rfl
  | cons field fields ih => rw [List.flatMap_cons, list_bytes_append, ih]

/-- Bytes are the fields that they are read as, unless there is one too many. -/
theorem flatMap_bytes_list {bytes : Bytes} (even : bytes.length % size = 0) :
    (list bytes).flatMap Field.bytes = bytes := by
  fun_induction list bytes with
  | case1 high low rest ih =>
    have restEven : rest.length % size = 0 := by
      simp only [List.length_cons, size] at even ⊢
      omega
    rw [List.flatMap_cons, bytes_of_pair, ih restEven, List.cons_append, List.singleton_append]
  | case2 bytes lone =>
    match bytes, lone, even with
    | [], _, _ => rfl
    | [_], _, even => simp [size] at even
    | high :: low :: rest, lone, _ => exact (lone high low rest rfl).elim

theorem length_flatMap_bytes (fields : List Field) :
    (fields.flatMap bytes).length = size * fields.length := by
  induction fields with
  | nil => rfl
  | cons field fields ih =>
    rw [List.flatMap_cons, List.length_append, length_bytes, ih, List.length_cons, Nat.mul_succ, Nat.add_comm]

/-- The fields in the first bytes are the first fields. -/
theorem list_take (bytes : Bytes) (count : Nat) : list (bytes.take (size * count)) = (list bytes).take count := by
  induction count generalizing bytes with
  | zero => rfl
  | succ count ih =>
    have more : size * (count + 1) = size * count + 1 + 1 := rfl
    match bytes with
    | [] => rfl
    | [_] => rfl
    | high :: low :: rest => rw [more, List.take_succ_cons, List.take_succ_cons, list, list, List.take_succ_cons, ih]

theorem list_drop (bytes : Bytes) (count : Nat) : list (bytes.drop (size * count)) = (list bytes).drop count := by
  induction count generalizing bytes with
  | zero => rfl
  | succ count ih =>
    have more : size * (count + 1) = size * count + 1 + 1 := rfl
    match bytes with
    | [] => rfl
    | [_] => rw [more, List.drop_succ_cons, List.drop_nil]; rfl
    | high :: low :: rest => rw [more, List.drop_succ_cons, List.drop_succ_cons, list, List.drop_succ_cons, ih]

/-- A field is looked up where the list of those that follow begins. -/
theorem at?_eq_head? (bytes : Bytes) (start : Nat) : at? bytes start = (list (bytes.drop start)).head? := by
  unfold at?
  split
  · next shape => rw [shape, list, List.head?_cons]
  · next lone =>
    match shape : bytes.drop start with
    | [] => rfl
    | [_] => rfl
    | high :: low :: rest => exact (lone high low rest shape).elim

theorem read_append (before after : Bytes) (field : Field) :
    read (before ++ field.bytes ++ after) before.length = .ok field := by
  simp only [read, at?_append]

theorem checkPayload_ok_iff {field : Field} {payload : Bytes} :
    field.checkPayload payload = .ok () ↔
      payload.length = field.width ∧ allowsWidth field.kind field.width = true := by
  unfold checkPayload checkWidth
  by_cases same : payload.length = field.width
  · by_cases allowed : allowsWidth field.kind field.width = true <;> simp [same, allowed]
  · simp [same]

/-- Every part that a field is built from can be read off it. -/
theorem ofParts_ok {offset width : Nat} {kind : NumberKind} {field : Field}
    (built : ofParts offset width kind = .ok field) :
    field.offset = offset ∧ field.width = width ∧ field.kind = kind ∧ allowsWidth kind width = true := by
  unfold ofParts checkWidth at built
  split at built
  · cases built
  · next small =>
    by_cases allowed : allowsWidth kind width = true
    · have narrow : 1 ≤ width ∧ width ≤ 8 := by
        cases kind <;> simp [allowsWidth] at allowed <;> omega
      simp only [allowed, if_true, Except.ok.injEq] at built
      subst field
      unfold maxOffset at small
      refine ⟨?_, ?_, ?_, allowed⟩
      · cases kind <;> simp only [Field.offset, UInt16.toNat_ofNat', reduceCtorEq, if_true, if_false] <;> omega
      · cases kind <;> simp only [Field.width, UInt16.toNat_ofNat', reduceCtorEq, if_true, if_false] <;> omega
      · cases kind <;> simp only [Field.kind, UInt16.toNat_ofNat', reduceCtorEq, if_true, if_false]
        · exact if_pos (by omega)
        · exact if_neg (by omega)
    · simp [allowed] at built

/-- Every offset that there is goes with every width that the kind takes. -/
theorem exists_ofParts_iff {offset width : Nat} {kind : NumberKind} :
    (∃ field, ofParts offset width kind = .ok field) ↔ offset ≤ maxOffset ∧ allowsWidth kind width = true := by
  constructor
  · rintro ⟨field, built⟩
    obtain ⟨rfl, _, _, allowed⟩ := ofParts_ok built
    exact ⟨field.offset_le, allowed⟩
  · rintro ⟨small, allowed⟩
    simp only [ofParts, checkWidth, allowed, if_true, Nat.not_lt.mpr small, if_false]
    exact ⟨_, rfl⟩

theorem ofParts_fits {offset : Nat} {kind : NumberKind} {payload : Bytes} {field : Field}
    (built : ofParts offset payload.length kind = .ok field) : field.checkPayload payload = .ok () := by
  obtain ⟨_, width, kind, allowed⟩ := ofParts_ok built
  exact checkPayload_ok_iff.mpr ⟨width.symm, by rw [width, kind]; exact allowed⟩

end Rollup.Field
