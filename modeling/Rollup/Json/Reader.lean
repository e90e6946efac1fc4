import Rollup.Json.Token

/-! From tokens to values. Containers that are still open are kept in a list of frames, so a text
may nest as deeply as it likes. -/

namespace Rollup.Json

/-- A container part way through, its finished parts in reverse. -/
inductive Frame
  | array (items : List Json)
  | object (members : List (Option String × Json)) (name? : Option String)

/-- What may come next. -/
inductive Expect
  | item
  | firstItem
  | name (members : List (Option String × Json))
  | colon (members : List (Option String × Json)) (name? : Option String)
  /-- A value is complete, and its container goes on or ends. -/
  | after (value : Json)

namespace Expect

def begin? (frames : List Frame) : Token → Option (Expect × List Frame)
  | .literal value => some (.after value, frames)
  | .text content? => some (.after (.text content?), frames)
  | .openArray => some (.firstItem, frames)
  | .openObject => some (.name [], frames)
  | _ => none

def step? : Expect → List Frame → Token → Option (Expect × List Frame)
  | .item, frames, token => begin? frames token
  | .firstItem, frames, .closeArray => some (.after (.array []), frames)
  | .firstItem, frames, token => begin? (.array [] :: frames) token
  | .name members, frames, .text name? => some (.colon members name?, frames)
  | .name [], frames, .closeObject => some (.after (.object []), frames)
  | .colon members name?, frames, .colon => some (.item, .object members name? :: frames)
  | .after value, .array items :: frames, .comma => some (.item, .array (value :: items) :: frames)
  | .after value, .array items :: frames, .closeArray =>
    some (.after (.array (value :: items).reverse), frames)
  | .after value, .object members name? :: frames, .comma =>
    some (.name ((name?, value) :: members), frames)
  | .after value, .object members name? :: frames, .closeObject =>
    some (.after (.object ((name?, value) :: members).reverse), frames)
  | _, _, _ => none

def run? (expect : Expect) (frames : List Frame) : List Token → Option (Expect × List Frame)
  | [] => some (expect, frames)
  | token :: rest =>
    match step? expect frames token with
    | some (expect, frames) => run? expect frames rest
    | none => none

end Expect

def ofTokens? (tokens : List Token) : Option Json :=
  match Expect.run? .item [] tokens with
  | some (.after value, []) => some value
  | _ => none

/-- The value that a text holds, with nothing but blanks around it. -/
def parse? (text : String) : Option Json := (Token.ofText? text.toList).bind ofTokens?

end Rollup.Json
