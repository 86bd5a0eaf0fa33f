import BulkSync.Json.Number
import BulkSync.Json.Text

set_option autoImplicit false

namespace BulkSync.Json

def isSpace (c : Char) : Bool := c = ' ' || c = '\n' || c = '\t' || c = '\r'

def skip (cs : List Char) : List Char := cs.dropWhile isSpace

def expect (word : List Char) (result : Json) (cs : List Char) : Option (Json × List Char) :=
  if word.isPrefixOf cs then some (result, cs.drop word.length) else none

-- Two calls of these use up at least one character.
mutual

def readValue : Nat → List Char → Option (Json × List Char)
  | 0, _ => none
  | fuel + 1, cs =>
    match skip cs with
    | [] => none
    | '"' :: rest => (readPieces .between rest).map fun (pieces, after) => (.string pieces, after)
    | '[' :: rest =>
      match skip rest with
      | ']' :: after => some (.array [], after)
      | rest => (readItems fuel rest).map fun (items, after) => (.array items, after)
    | '\x7b' :: rest =>
      match skip rest with
      | '\x7d' :: after => some (.object [], after)
      | rest => (readMembers fuel rest).map fun (members, after) => (.object members, after)
    | c :: rest =>
      if c = 't' then expect ['r', 'u', 'e'] (.boolean true) rest
      else if c = 'f' then expect ['a', 'l', 's', 'e'] (.boolean false) rest
      else if c = 'n' then expect ['u', 'l', 'l'] .null rest
      else (readNumber (c :: rest)).map fun (n, after) => (.number n, after)

-- At least one item, up to the closing bracket.
def readItems : Nat → List Char → Option (List Json × List Char)
  | 0, _ => none
  | fuel + 1, cs => do
    let (item, rest) ← readValue fuel cs
    match skip rest with
    | ',' :: rest => do
      let (items, after) ← readItems fuel rest
      return (item :: items, after)
    | ']' :: after => return ([item], after)
    | _ => none

def readMembers : Nat → List Char → Option (List (List Piece × Json) × List Char)
  | 0, _ => none
  | fuel + 1, cs => do
    let '"' :: rest := skip cs | none
    let (name, rest) ← readPieces .between rest
    let ':' :: rest := skip rest | none
    let (value, rest) ← readValue fuel rest
    match skip rest with
    | ',' :: rest => do
      let (members, after) ← readMembers fuel rest
      return ((name, value) :: members, after)
    | '\x7d' :: after => return ([(name, value)], after)
    | _ => none

end

def parse (text : String) : Option Json := do
  let cs := text.toList
  let (value, rest) ← readValue (2 * cs.length + 2) cs
  if skip rest = [] then return value else none

end BulkSync.Json
