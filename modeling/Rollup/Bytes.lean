/-! Byte strings are lists of bytes. They are read as big-endian naturals, cut back into a fixed
number of bytes, and printed as lowercase hex or as a bracketed list of decimals. -/

namespace Rollup

abbrev Bytes := List UInt8

namespace Bytes

/-- The number whose base-256 digits are the bytes, most significant first. -/
def toNat (bytes : Bytes) : Nat :=
  bytes.foldl (fun total byte => total * 256 + byte.toNat) 0

/-- The lowest `width` base-256 digits of a number, most significant first. -/
def ofNat : Nat → Nat → Bytes
  | 0, _ => []
  | width + 1, n => ofNat width (n / 256) ++ [UInt8.ofNat (n % 256)]

@[simp] theorem length_ofNat (width n : Nat) : (ofNat width n).length = width := by
  induction width generalizing n with
  | zero => rfl
  | succ width ih => simp [ofNat, ih]

def hexDigits : Bytes → List Char
  | [] => []
  | byte :: rest =>
    Nat.digitChar (byte.toNat / 16) :: Nat.digitChar (byte.toNat % 16) :: hexDigits rest

/-- Two lowercase hex digits a byte. -/
def hex (bytes : Bytes) : String := String.ofList (hexDigits bytes)

/-- Decimal numbers in square brackets, such as `[0, 1, 255]`. -/
def listed (bytes : Bytes) : String :=
  "[" ++ String.intercalate ", " (bytes.map fun byte => Nat.repr byte.toNat) ++ "]"

/-- ASCII capitals become small letters and every other byte stays. -/
def lowerByte (byte : UInt8) : UInt8 :=
  if 65 ≤ byte.toNat ∧ byte.toNat ≤ 90 then byte + 32 else byte

/-- Whether `bytes` begins with `start`, ASCII case aside. -/
def startsWith (start bytes : Bytes) : Bool :=
  match start, bytes with
  | [], _ => true
  | _ :: _, [] => false
  | first :: start, byte :: bytes => lowerByte first == lowerByte byte && startsWith start bytes

end Bytes

end Rollup
