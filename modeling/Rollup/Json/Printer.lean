import Rollup.Json.Quoted
import Rollup.Json.Value

/-! JSON texts of values, either without any blanks or with a line for each part and two more spaces
of indentation inside each container. -/

namespace Rollup.Json

def quote (content? : Option String) : List Char :=
  '"' :: Quoted.escape (content?.getD "").toList ++ ['"']

mutual

def compact : Json → List Char
  | .null => "null".toList
  | .bool true => "true".toList
  | .bool false => "false".toList
  | .number literal => literal
  | .text content? => quote content?
  | .array items => '[' :: compactItems items ++ [']']
  | .object members => '{' :: compactMembers members ++ ['}']

def compactItems : List Json → List Char
  | [] => []
  | [item] => compact item
  | item :: items => compact item ++ ',' :: compactItems items

def compactMembers : List (Option String × Json) → List Char
  | [] => []
  | [(name?, value)] => quote name? ++ ':' :: compact value
  | (name?, value) :: members =>
    quote name? ++ ':' :: compact value ++ ',' :: compactMembers members

end

def newline (depth : Nat) : List Char := '\n' :: List.replicate (2 * depth) ' '

mutual

def indented (depth : Nat) : Json → List Char
  | .null => "null".toList
  | .bool true => "true".toList
  | .bool false => "false".toList
  | .number literal => literal
  | .text content? => quote content?
  | .array [] => "[]".toList
  | .array items => '[' :: indentedItems (depth + 1) items ++ newline depth ++ [']']
  | .object [] => ['{', '}']
  | .object members => '{' :: indentedMembers (depth + 1) members ++ newline depth ++ ['}']

def indentedItems (depth : Nat) : List Json → List Char
  | [] => []
  | [item] => newline depth ++ indented depth item
  | item :: items => newline depth ++ indented depth item ++ ',' :: indentedItems depth items

def indentedMembers (depth : Nat) : List (Option String × Json) → List Char
  | [] => []
  | [(name?, value)] => newline depth ++ quote name? ++ ':' :: ' ' :: indented depth value
  | (name?, value) :: members =>
    newline depth ++ quote name? ++ ':' :: ' ' :: indented depth value ++
      ',' :: indentedMembers depth members

end

def compactText (value : Json) : String := String.ofList value.compact

def prettyText (value : Json) : String := String.ofList (value.indented 0)

end Rollup.Json
