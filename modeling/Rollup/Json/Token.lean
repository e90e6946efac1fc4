import Rollup.Json.Number
import Rollup.Json.Quoted

/-! Tokens of a JSON text. Strings end at a quote that no backslash escapes; words and numbers are
the longest runs of letters, digits, signs and points. -/

namespace Rollup.Json

inductive Token
  | openObject
  | closeObject
  | openArray
  | closeArray
  | colon
  | comma
  | text (content? : Option String)
  | literal (value : Json)

namespace Token

/-- Where in a text the next character stands; what has been read of a token is in reverse. -/
inductive Mode
  | between
  | word (read : List Char)
  | quoted (read : List Char) (escaped : Bool)

def isSpace (c : Char) : Bool := c == ' ' || c == '\t' || c == '\n' || c == '\r'

def isWordChar (c : Char) : Bool := c.isAlphanum || c == '+' || c == '-' || c == '.'

def ofWord? (word : List Char) : Option Token :=
  if word = "null".toList then some (.literal .null)
  else if word = "true".toList then some (.literal (.bool true))
  else if word = "false".toList then some (.literal (.bool false))
  else if Number.isLiteral word then some (.literal (.number word))
  else none

def ofMark? : Char → Option Token
  | '{' => some .openObject
  | '}' => some .closeObject
  | '[' => some .openArray
  | ']' => some .closeArray
  | ':' => some .colon
  | ',' => some .comma
  | _ => none

/-- A character outside every token begun before it. -/
def begin? (c : Char) (done : List Token) : Option (Mode × List Token) :=
  if isSpace c then some (.between, done)
  else if c = '"' then some (.quoted [] false, done)
  else if isWordChar c then some (.word [c], done)
  else (ofMark? c).map fun token => (.between, token :: done)

def step? (mode : Mode) (done : List Token) (c : Char) : Option (Mode × List Token) :=
  match mode with
  | .between => begin? c done
  | .word read =>
    if isWordChar c then some (.word (c :: read), done)
    else (ofWord? read.reverse).bind fun token => begin? c (token :: done)
  | .quoted read true => some (.quoted (c :: read) false, done)
  | .quoted read false =>
    if c = '\\' then some (.quoted (c :: read) true, done)
    else if c = '"' then
      (Quoted.read? read.reverse).map fun content? => (.between, .text content? :: done)
    else some (.quoted (c :: read) false, done)

def finish? (mode : Mode) (done : List Token) : Option (List Token) :=
  match mode with
  | .between => some done.reverse
  | .word read => (ofWord? read.reverse).map fun token => (token :: done).reverse
  | .quoted _ _ => none

def scan? (mode : Mode) (done : List Token) : List Char → Option (List Token)
  | [] => finish? mode done
  | c :: rest =>
    match step? mode done c with
    | some (mode, done) => scan? mode done rest
    | none => none

/-- The tokens of a text. -/
def ofText? (text : List Char) : Option (List Token) := scan? .between [] text

end Token

end Rollup.Json
