/-! The inside of a JSON string. Written, only quotes, backslashes and control characters are
escaped. Read, escapes in hexadecimal name UTF-16 units, so that two of them may make one
character and one alone may make none. -/

namespace Rollup.Json.Quoted

def escapeChar (c : Char) : List Char :=
  if c = '"' then ['\\', '"']
  else if c = '\\' then ['\\', '\\']
  else if c = '\x08' then ['\\', 'b']
  else if c = '\t' then ['\\', 't']
  else if c = '\n' then ['\\', 'n']
  else if c = '\x0c' then ['\\', 'f']
  else if c = '\r' then ['\\', 'r']
  else if c.toNat < 32 then
    ['\\', 'u', '0', '0', Nat.digitChar (c.toNat / 16), Nat.digitChar (c.toNat % 16)]
  else [c]

def escape (content : List Char) : List Char := content.flatMap escapeChar

/-- What a backslash and one character stand for. -/
def shortEscape? : Char → Option Nat
  | '"' => some 0x22
  | '\\' => some 0x5C
  | '/' => some 0x2F
  | 'b' => some 0x08
  | 'f' => some 0x0C
  | 'n' => some 0x0A
  | 'r' => some 0x0D
  | 't' => some 0x09
  | _ => none

def hexDigit? (c : Char) : Option Nat :=
  if c.isDigit then some (c.toNat - 48)
  else if 'a' ≤ c ∧ c ≤ 'f' then some (c.toNat - 87)
  else if 'A' ≤ c ∧ c ≤ 'F' then some (c.toNat - 55)
  else none

def hexUnit? (a b c d : Char) : Option Nat :=
  match hexDigit? a, hexDigit? b, hexDigit? c, hexDigit? d with
  | some a, some b, some c, some d => some (((a * 16 + b) * 16 + c) * 16 + d)
  | _, _, _, _ => none

/-- Code points, and UTF-16 units where they are escaped. Control characters have to be escaped. -/
def units? : List Char → Option (List Nat)
  | [] => some []
  | '\\' :: 'u' :: a :: b :: c :: d :: rest =>
    match hexUnit? a b c d, units? rest with
    | some unit, some units => some (unit :: units)
    | _, _ => none
  | '\\' :: c :: rest =>
    match shortEscape? c, units? rest with
    | some unit, some units => some (unit :: units)
    | _, _ => none
  | c :: rest =>
    if c.toNat < 32 ∨ c = '\\' ∨ c = '"' then none else (units? rest).map (c.toNat :: ·)

def isHigh (unit : Nat) : Bool := 0xD800 ≤ unit && unit < 0xDC00

def isLow (unit : Nat) : Bool := 0xDC00 ≤ unit && unit < 0xE000

/-- The characters that units make up; none if half of a pair stands alone. -/
def join? : List Nat → Option (List Char)
  | [] => some []
  | [unit] => if isHigh unit || isLow unit then none else some [Char.ofNat unit]
  | unit :: next :: rest =>
    if isHigh unit then
      if isLow next then
        (join? rest).map (Char.ofNat (0x10000 + (unit - 0xD800) * 1024 + (next - 0xDC00)) :: ·)
      else none
    else if isLow unit then none
    else (join? (next :: rest)).map (Char.ofNat unit :: ·)

/-- What stands between two quotes, if it is well-formed; its content may still be none. -/
def read? (raw : List Char) : Option (Option String) :=
  (units? raw).map fun units => (join? units).map String.ofList

end Rollup.Json.Quoted
