/-! JSON values as they stand in a text: members keep their order and may repeat a name, and numbers
are their literals. A string can name half of a surrogate pair; it is well-formed but has no
content. -/

namespace Rollup

inductive Json
  | null
  | bool (value : Bool)
  | number (literal : List Char)
  | text (content? : Option String)
  | array (items : List Json)
  | object (members : List (Option String × Json))

namespace Json

def ofNat (n : Nat) : Json := .number (Nat.toDigits 10 n)

def ofInt (n : Int) : Json :=
  .number (if n < 0 then '-' :: Nat.toDigits 10 n.natAbs else Nat.toDigits 10 n.natAbs)

def ofString (content : String) : Json := .text (some content)

/-- An object whose members have content for names. -/
def record (members : List (String × Json)) : Json :=
  .object (members.map fun member => (some member.1, member.2))

end Json

end Rollup
