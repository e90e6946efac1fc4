import Rollup.Proofs.IntegerWidths

/-! Integers are written and read on words, step by step: limits by shifts, signs by a shift up and one down, and the
fewest bytes by narrowing. A step that would leave its word has no result. None does, and the steps come to what was
said of the numbers. -/

namespace Rollup

namespace Bytes

theorem drop_ofNat {front width : Nat} (n : Nat) : (ofNat (front + width) n).drop front = ofNat width n := by
  induction width generalizing n with
  | zero => exact List.drop_eq_nil_of_le (by rw [length_ofNat]; exact Nat.le_refl _)
  | succ width ih =>
    rw [← Nat.add_assoc, ofNat, List.drop_append_of_le_length (by rw [length_ofNat]; omega), ih, ofNat]

theorem toNat_replicate_append (front : Nat) (bytes : Bytes) :
    toNat (List.replicate front 0 ++ bytes) = toNat bytes := by
  induction front with
  | zero => rfl
  | succ front ih => rw [List.replicate_succ, List.cons_append, ← ih]; rfl

end Bytes

namespace Stepwise

/-- What is left of a size. -/
def less? (total part : Nat) : Option Nat := if part ≤ total then some (total - part) else none

def word? (n : Int) : Option Int64 :=
  if Int64.minValue.toInt ≤ n ∧ n ≤ Int64.maxValue.toInt then some (.ofInt n) else none

/-- The places must be fewer than a word has. -/
def shiftUp? (word : UInt64) (places : Nat) : Option UInt64 :=
  if places < 64 then some ⟨word.toBitVec <<< places⟩ else none

/-- The sign goes on into the places that become free. -/
def shiftDown? (word : Int64) (places : Nat) : Option Int64 :=
  if places < 64 then some (.ofBitVec (word.toBitVec.sshiftRight places)) else none

/-- One at the place of the sign in so many bytes. -/
def limit? (width : Nat) : Option Int64 := do
  let places ← less? (8 * width) 1
  let limit ← shiftUp? 1 places
  some limit.toInt64

/-- Whether an integer is within the limits of a width. All words are within those of eight bytes. -/
def inside? (width : Nat) (n : Int64) : Option Bool :=
  if width < 8 then do
    let low ← word? (-(← limit? width).toInt)
    let high ← word? ((← limit? width).toInt - 1)
    some (!(n < low || high < n))
  else some true

/-- The bytes of a word without those in front. -/
def encodeIntegerIn? (width : Nat) (n : Int64) : Option (Except CellError Bytes) :=
  match Field.checkWidth .integer width with
  | .error cause => some (.error cause)
  | .ok () => do
    if ← inside? width n then
      let front ← less? 8 width
      some (.ok ((Bytes.ofNat 8 n.toUInt64.toNat).drop front))
    else some (.error (.integerTooWide n width))

/-- The narrowest word that holds the integer. -/
def encodeInteger (n : Int64) : Bytes :=
  if n.toInt8.toInt64 = n then [n.toInt8.toUInt8]
  else if n.toInt16.toInt64 = n then Bytes.ofNat 2 n.toInt16.toUInt16.toNat
  else if n.toInt32.toInt64 = n then Bytes.ofNat 4 n.toInt32.toUInt32.toNat
  else Bytes.ofNat 8 n.toUInt64.toNat

/-- The payload stands at the end of a word, and is shifted up to its front and down again. -/
def signed? (payload : Bytes) : Option Int64 := do
  let width := min payload.length 8
  if width = 0 then some 0
  else
    let front ← less? 8 width
    let places ← less? 64 (8 * width)
    let raised ← shiftUp? (.ofNat (Bytes.toNat (List.replicate front 0 ++ payload.take width))) places
    shiftDown? raised.toInt64 places

def decodeInteger? (field : Field) (payload : Bytes) : Option (Except CellError Value) :=
  match field.checkPayload payload with
  | .error cause => some (.error cause)
  | .ok () => (signed? payload).map fun n => .ok (.integer n)

theorem word?_eq_some {n : Int} (low : Int64.minValue.toInt ≤ n) (high : n ≤ Int64.maxValue.toInt) :
    ∃ word, word? n = some word ∧ word.toInt = n := by
  have least : Int64.minValue.toInt = -9223372036854775808 := rfl
  have most : Int64.maxValue.toInt = 9223372036854775807 := rfl
  exact ⟨.ofInt n, if_pos ⟨low, high⟩, Int64.toInt_ofInt_of_le (by omega) (by omega)⟩

theorem toNat_shiftUp {word : UInt64} {places : Nat} (few : places < 64)
    (room : word.toNat * Nat.pow 2 places < Nat.pow 2 64) :
    ∃ raised, shiftUp? word places = some raised ∧ raised.toNat = word.toNat * Nat.pow 2 places := by
  refine ⟨_, if_pos few, ?_⟩
  calc
    (word.toBitVec <<< places).toNat = word.toBitVec.toNat <<< places % 2 ^ 64 := BitVec.toNat_shiftLeft
    _ = word.toNat * Nat.pow 2 places % 2 ^ 64 := by rw [Nat.shiftLeft_eq]; rfl
    _ = word.toNat * Nat.pow 2 places := Nat.mod_eq_of_lt room

theorem limit?_eq_some {width : Nat} (wide : 1 ≤ width) (short : width < 8) :
    ∃ limit, limit? width = some limit ∧ limit.toInt = Nat.pow 2 (8 * width - 1) := by
  have room : Nat.pow 2 (8 * width - 1) ≤ Nat.pow 2 55 := Nat.pow_le_pow_right (by decide) (by omega)
  have value : Nat.pow 2 55 = 36028797018963968 := rfl
  have one : (1 : UInt64).toNat = 1 := rfl
  have word : Nat.pow 2 64 = 18446744073709551616 := rfl
  obtain ⟨limit, shifted, unsigned⟩ := @toNat_shiftUp 1 (8 * width - 1) (by omega) (by rw [one]; omega)
  rw [one, Nat.one_mul] at unsigned
  refine ⟨limit.toInt64, ?_, ?_⟩
  · simp only [limit?, less?, show 1 ≤ 8 * width by omega, if_true, Option.bind_eq_bind, Option.bind_some, shifted]
  · have signed : limit.toInt64.toInt = limit.toBitVec.toInt := rfl
    have same : limit.toBitVec.toNat = limit.toNat := rfl
    rw [signed, BitVec.toInt_eq_toNat_cond, if_pos (by omega), same, unsigned]

theorem inside?_eq_some {width : Nat} (n : Int64) (allowed : 1 ≤ width ∧ width ≤ 8) :
    inside? width n = some (decide (Value.FitsIn width n)) := by
  unfold inside?
  split
  · next short =>
    have room : Nat.pow 2 (8 * width - 1) ≤ Nat.pow 2 55 := Nat.pow_le_pow_right (by decide) (by omega)
    have value : Nat.pow 2 55 = 36028797018963968 := rfl
    have least : Int64.minValue.toInt = -9223372036854775808 := rfl
    have most : Int64.maxValue.toInt = 9223372036854775807 := rfl
    obtain ⟨limit, shifted, limitValue⟩ := limit?_eq_some allowed.1 short
    obtain ⟨low, negated, lowValue⟩ := @word?_eq_some (-limit.toInt) (by omega) (by omega)
    obtain ⟨high, lowered, highValue⟩ := @word?_eq_some (limit.toInt - 1) (by omega) (by omega)
    have inside : ¬ (n < low ∨ high < n) ↔ Value.FitsIn width n := by
      simp only [Int64.lt_iff_toInt_lt, Value.FitsIn, allowed, and_self, true_and]
      omega
    simp only [shifted, Option.bind_eq_bind, Option.bind_some, negated, lowered, ← inside, decide_not, Bool.decide_or]
  · next full =>
    have eight : width = 8 := by omega
    subst width
    simp only [Value.fitsIn_eight, decide_true]

theorem encodeIntegerIn?_eq (width : Nat) (n : Int64) :
    encodeIntegerIn? width n = some (encodeIntegerIn width n) := by
  unfold encodeIntegerIn?
  split
  · next refused => simp only [encodeIntegerIn, refused]
  · next checked =>
    have allowed : 1 ≤ width ∧ width ≤ 8 := by simpa [Field.checkWidth, Field.allowsWidth] using checked
    have front : less? 8 width = some (8 - width) := if_pos allowed.2
    have whole : 8 - width + width = 8 := by omega
    have bytes := @Bytes.drop_ofNat (8 - width) width n.toUInt64.toNat
    rw [whole] at bytes
    rw [inside?_eq_some n allowed, Value.encodeIntegerIn_of_width allowed]
    simp only [Option.bind_eq_bind, Option.bind_some, decide_eq_true_eq, front, bytes]
    split <;> rfl

private theorem pow_width_mul_pow {width : Nat} (narrow : width ≤ 8) :
    Nat.pow 256 width * Nat.pow 2 (64 - 8 * width) = Nat.pow 2 64 := by
  have exponent : 8 * width + (64 - 8 * width) = 64 := by omega
  calc
    Nat.pow 256 width * Nat.pow 2 (64 - 8 * width) = Nat.pow (Nat.pow 2 8) width * Nat.pow 2 (64 - 8 * width) := rfl
    _ = Nat.pow 2 (8 * width) * Nat.pow 2 (64 - 8 * width) :=
      congrArg (fun range => range * Nat.pow 2 (64 - 8 * width)) (Nat.pow_mul 2 8 width).symm
    _ = Nat.pow 2 (8 * width + (64 - 8 * width)) := (Nat.pow_add 2 _ _).symm
    _ = Nat.pow 2 64 := by rw [exponent]

/-- The word that a number times a power of two makes up is negative if the number is in the upper half of its range. -/
private theorem toInt_shiftDown {raised : UInt64} {n range places : Nat} (few : places < 64)
    (whole : range * Nat.pow 2 places = Nat.pow 2 64) (raisedValue : raised.toNat = n * Nat.pow 2 places) :
    ∃ lowered, shiftDown? raised.toInt64 places = some lowered ∧
      lowered.toInt = if 2 * n < range then (n : Int) else n - range := by
  have positive : 0 < Nat.pow 2 places := Nat.pow_pos (by decide)
  have nonzero : ((Nat.pow 2 places : Nat) : Int) ≠ 0 := by omega
  have half : 2 * raised.toNat < Nat.pow 2 64 ↔ 2 * n < range := by
    rw [raisedValue, ← whole, ← Nat.mul_assoc]
    exact Nat.mul_lt_mul_right positive
  have word : raised.toInt64.toBitVec.toInt =
      (if 2 * n < range then (n : Int) else n - range) * (Nat.pow 2 places : Nat) := by
    have size : ((Nat.pow 2 64 : Nat) : Int) = (range : Int) * (Nat.pow 2 places : Nat) := by
      rw [← Int.natCast_mul, whole]
    have value : (raised.toNat : Int) = (n : Int) * (Nat.pow 2 places : Nat) := by rw [← Int.natCast_mul, raisedValue]
    calc
      raised.toInt64.toBitVec.toInt = raised.toBitVec.toInt := rfl
      _ = if 2 * raised.toNat < Nat.pow 2 64 then (raised.toNat : Int) else raised.toNat - (Nat.pow 2 64 : Nat) :=
        BitVec.toInt_eq_toNat_cond raised.toBitVec
      _ = (if 2 * n < range then (n : Int) else n - range) * (Nat.pow 2 places : Nat) := by
        simp only [half, size, value]
        split
        · rfl
        · rw [Int.sub_mul]
  refine ⟨_, if_pos few, ?_⟩
  rw [Int64.toInt_ofBitVec, BitVec.toInt_sshiftRight, Int.shiftRight_eq_div_pow, word]
  exact Int.mul_ediv_cancel _ nonzero

/-- Shifted up, the sign of a payload is that of the word. -/
theorem signed?_eq_some {payload : Bytes} (wide : 1 ≤ payload.length) (narrow : payload.length ≤ 8) :
    signed? payload = some (.ofInt (Value.signed payload)) := by
  have bound := Bytes.toNat_lt payload
  have whole := pow_width_mul_pow narrow
  have few : 64 - 8 * payload.length < 64 := by omega
  have positive : 0 < Nat.pow 2 (64 - 8 * payload.length) := Nat.pow_pos (by decide)
  have room : Bytes.toNat payload * Nat.pow 2 (64 - 8 * payload.length) < Nat.pow 2 64 := by
    rw [← whole]
    exact Nat.mul_lt_mul_of_pos_right bound positive
  have raw : (UInt64.ofNat (Bytes.toNat payload)).toNat = Bytes.toNat payload := by
    rw [UInt64.toNat_ofNat']
    exact Nat.mod_eq_of_lt (Nat.lt_of_le_of_lt (Nat.le_mul_of_pos_right _ positive) room)
  obtain ⟨raised, shifted, raisedValue⟩ := @toNat_shiftUp (.ofNat (Bytes.toNat payload)) _ few (by rwa [raw])
  rw [raw] at raisedValue
  obtain ⟨lowered, shiftedBack, loweredValue⟩ := toInt_shiftDown few whole raisedValue
  have same : lowered = .ofInt (Value.signed payload) :=
    Int64.toInt_inj.mp (loweredValue.trans (Value.fitsIn_signed wide narrow).2.symm)
  have width : min payload.length 8 = payload.length := Nat.min_eq_left narrow
  have front : less? 8 payload.length = some (8 - payload.length) := if_pos narrow
  have places : less? 64 (8 * payload.length) = some (64 - 8 * payload.length) := if_pos (by omega)
  simp only [signed?, width, if_neg (show payload.length ≠ 0 by omega), front, places, List.take_length,
    Bytes.toNat_replicate_append, Option.bind_eq_bind, Option.bind_some, shifted, shiftedBack, same]

private theorem toNat_narrow {places : Nat} (narrow : places ≤ 64) (n : Int64) :
    (n.toBitVec.signExtend places).toNat = n.toUInt64.toNat % Nat.pow 2 places := by
  rw [BitVec.signExtend_eq_setWidth_of_le _ narrow, BitVec.toNat_setWidth]
  rfl

/-- A narrower word holds an integer if the integer comes back from it, and its bytes are the low bytes. -/
theorem encodeInteger_eq (n : Int64) : encodeInteger n = Rollup.encodeInteger n := by
  have one : n.toInt8.toInt64 = n ↔ survives 1 n = true := by
    rw [survives, beq_iff_eq, Value.signed_lowBytes_eq_bmod (by decide), ← Int64.toInt_inj, Int8.toInt_toInt64,
      Int64.toInt_toInt8]
  have two : n.toInt16.toInt64 = n ↔ survives 2 n = true := by
    rw [survives, beq_iff_eq, Value.signed_lowBytes_eq_bmod (by decide), ← Int64.toInt_inj, Int16.toInt_toInt64,
      Int64.toInt_toInt16]
  have four : n.toInt32.toInt64 = n ↔ survives 4 n = true := by
    rw [survives, beq_iff_eq, Value.signed_lowBytes_eq_bmod (by decide), ← Int64.toInt_inj, Int32.toInt_toInt64,
      Int64.toInt_toInt32]
  have oneByte : [n.toInt8.toUInt8] = lowBytes 1 n := by
    have low : n.toInt8.toUInt8.toNat = n.toUInt64.toNat % 256 := toNat_narrow (by decide) n
    rw [lowBytes, Bytes.ofNat, ← low, UInt8.ofNat_toNat, Bytes.ofNat, List.nil_append]
  have twoBytes : Bytes.ofNat 2 n.toInt16.toUInt16.toNat = lowBytes 2 n := by
    have low : n.toInt16.toUInt16.toNat = n.toUInt64.toNat % Nat.pow 256 2 := toNat_narrow (by decide) n
    rw [low, Bytes.ofNat_mod, lowBytes]
  have fourBytes : Bytes.ofNat 4 n.toInt32.toUInt32.toNat = lowBytes 4 n := by
    have low : n.toInt32.toUInt32.toNat = n.toUInt64.toNat % Nat.pow 256 4 := toNat_narrow (by decide) n
    rw [low, Bytes.ofNat_mod, lowBytes]
  unfold encodeInteger Rollup.encodeInteger
  simp only [one, two, four, oneByte, twoBytes, fourBytes]
  rfl

theorem decodeInteger?_eq {field : Field} (kind : field.kind = .integer) (payload : Bytes) :
    decodeInteger? field payload = some (Value.decode field payload) := by
  unfold decodeInteger? Value.decode
  cases checked : field.checkPayload payload with
  | error cause => rfl
  | ok _ =>
    have length := (Field.checkPayload_ok_iff.mp checked).1
    have wide := field.width_pos
    have narrow := field.width_le
    simp only [signed?_eq_some (show 1 ≤ payload.length by omega) (by omega), Option.map_some, kind, Value.ofPayload]

end Stepwise

/-- An integer is encoded in just those numbers of bytes that it fits in, and decoded from them again. Every payload of
one to eight bytes is the encoding of the integer that it decodes to. The shortest encoding is that of the first of the
widths one, two, four and eight that has one. No step on words leaves its range, and the steps give the same. -/
theorem Value.integers_correspond_to_payloads (n : Int64) (width : Nat) :
    ((∃ payload, encodeIntegerIn width n = .ok payload) ↔ FitsIn width n) ∧
      (∀ payload, encodeIntegerIn width n = .ok payload → payload.length = width ∧
        ∀ field : Field, field.kind = .integer → field.width = width → decode field payload = .ok (.integer n)) ∧
      (∀ payload : Bytes, 1 ≤ payload.length → payload.length ≤ 8 → ∃ m : Int64,
        encodeIntegerIn payload.length m = .ok payload ∧
          ∀ field : Field, field.kind = .integer → field.width = payload.length →
            decode field payload = .ok (.integer m)) ∧
      (∃ least ∈ [1, 2, 4, 8], encodeIntegerIn least n = .ok (encodeInteger n) ∧
        ∀ smaller ∈ [1, 2, 4, 8], smaller < least → ¬ ∃ payload, encodeIntegerIn smaller n = .ok payload) ∧
      Stepwise.encodeIntegerIn? width n = some (encodeIntegerIn width n) ∧
      Stepwise.encodeInteger n = encodeInteger n ∧
      ∀ field payload, field.kind = .integer →
        Stepwise.decodeInteger? field payload = some (decode field payload) := by
  refine ⟨encodeIntegerIn_isOk_iff, ?_, ?_, ?_, Stepwise.encodeIntegerIn?_eq width n, Stepwise.encodeInteger_eq n,
    fun _ payload kind => Stepwise.decodeInteger?_eq kind payload⟩
  · intro payload encoded
    obtain ⟨_, rfl⟩ := encodeIntegerIn_ok_iff.mp encoded
    have length : (lowBytes width n).length = width := Bytes.length_ofNat _ _
    refine ⟨length, fun field kind wide => ?_⟩
    rw [decode_integer kind (wide.trans length.symm), signed_encodeIntegerIn encoded, Int64.ofInt_toInt]
  · intro payload wide narrow
    exact ⟨_, encodeIntegerIn_signed wide narrow, fun field kind width => decode_integer kind width⟩
  · obtain ⟨least, member, encoded, smallest⟩ := encodeInteger_least n
    refine ⟨least, member, encoded, fun smaller isWidth below => ?_⟩
    rw [encodeIntegerIn_isOk_iff]
    exact smallest smaller isWidth below

/-- The least integer of three bytes. -/
theorem Value.integers_correspond_to_payloads_odd :
    encodeIntegerIn 3 (-8388608) = .ok [128, 0, 0] ∧ FitsIn 3 (-8388608) ∧
      Field.kind ⟨2⟩ = .integer ∧ Field.width ⟨2⟩ = 3 ∧ decode ⟨2⟩ [128, 0, 0] = .ok (.integer (-8388608)) ∧
      (∃ m, encodeIntegerIn 3 m = .ok [255, 127, 255]) ∧
      Stepwise.encodeIntegerIn? 3 (-8388608) = some (.ok [128, 0, 0]) := by
  have encoded : encodeIntegerIn 3 (-8388608) = .ok [128, 0, 0] := rfl
  obtain ⟨fits, decodes, onto, _, steps, _⟩ := integers_correspond_to_payloads (-8388608) 3
  obtain ⟨m, back, _⟩ := onto [255, 127, 255] (by decide) (by decide)
  have decoded := (decodes _ encoded).2 ⟨2⟩ rfl rfl
  exact ⟨encoded, fits.mp ⟨_, encoded⟩, rfl, rfl, decoded, ⟨m, back⟩, steps.trans (congrArg some encoded)⟩

end Rollup
