import Atelier.Json

/-!
Reading JSON text. The grammar is the strict one: no comments, no trailing commas, no leading zeros,
nothing after the value but blanks.
-/

namespace Atelier.Json

def isSpace (c : Char) : Bool :=
  c == ' ' || c == '\n' || c == '\t' || c == '\x0d'

def skipSpace (cs : List Char) : List Char :=
  cs.dropWhile isSpace

def readKey (cs : List Char) : Option (List Char × List Char) :=
  match skipSpace cs with
  | '"' :: cs => do
    let (k, cs) ← Text.Quoted.split? cs
    match skipSpace cs with
    | ':' :: cs => some (k, cs)
    | _ => none
  | _ => none

mutual

/-- Reads a value from the front of a text, with a bound on the number of steps. -/
def readValue : Nat → List Char → Option (Json × List Char)
  | 0, _ => none
  | n + 1, cs =>
    match skipSpace cs with
    | 'n' :: 'u' :: 'l' :: 'l' :: cs => some (null, cs)
    | 't' :: 'r' :: 'u' :: 'e' :: cs => some (bool true, cs)
    | 'f' :: 'a' :: 'l' :: 's' :: 'e' :: cs => some (bool false, cs)
    | '"' :: cs => (Text.Quoted.split? cs).map fun (s, cs) => (str s, cs)
    | '[' :: cs =>
      match skipSpace cs with
      | ']' :: cs => some (arr [], cs)
      | cs => (readItems n cs).map fun (vs, cs) => (arr vs, cs)
    | '\x7b' :: cs =>
      match skipSpace cs with
      | '\x7d' :: cs => some (obj [], cs)
      | cs => (readMembers n cs).map fun (ms, cs) => (obj ms, cs)
    | cs => (Decimal.Literal.read cs).map fun (l, cs) => (num l, cs)

def readItems : Nat → List Char → Option (List Json × List Char)
  | 0, _ => none
  | n + 1, cs => do
    let (v, cs) ← readValue n cs
    match skipSpace cs with
    | ',' :: cs => (readItems n cs).map fun (vs, cs) => (v :: vs, cs)
    | ']' :: cs => some ([v], cs)
    | _ => none

def readMembers : Nat → List Char → Option (List (List Char × Json) × List Char)
  | 0, _ => none
  | n + 1, cs => do
    let (k, cs) ← readKey cs
    let (v, cs) ← readValue n cs
    match skipSpace cs with
    | ',' :: cs => (readMembers n cs).map fun (ms, cs) => ((k, v) :: ms, cs)
    | '\x7d' :: cs => some ([(k, v)], cs)
    | _ => none

end

-- An item takes two steps and at least one character.
def readChars (cs : List Char) : Option Json := do
  let (v, rest) ← readValue (2 * cs.length + 2) cs
  if (skipSpace rest).isEmpty then some v else none

def read (s : String) : Option Json :=
  readChars s.toList

end Atelier.Json
