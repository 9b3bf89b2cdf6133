import Atelier.Decimal.Dyadic
import Atelier.Text.Quoted

/-!
JSON trees. Literals are kept as they are written: numbers by their digits, texts with their escapes.
What a literal stands for is asked only where a value is needed, so a tree can hold literals that
stand for nothing.
-/

namespace Atelier

inductive Json
  | null
  | bool (b : Bool)
  | num (l : Decimal.Literal)
  | str (quoted : List Char)
  | arr (items : List Json)
  | obj (members : List (List Char × Json))

namespace Json

instance : Inhabited Json := ⟨null⟩

def ofString (s : String) : Json :=
  str (Text.Quoted.encode s.toList)

def ofInt (i : Int) : Json :=
  num (.ofInt i)

def ofNat (n : Nat) : Json :=
  ofInt n

/-- Numbers below 10⁻⁵ and from 10¹⁶ on are written with an exponent. -/
def numbers : Decimal.PositionalRange := ⟨-5, 15⟩

/-- Undefined and infinite numbers have no literal. -/
def ofFloat (x : Float) : Json :=
  ((Decimal.shortest? numbers x).map num).getD null

def ofOption (f : α → Json) (o : Option α) : Json :=
  (o.map f).getD null

def ofList (f : α → Json) (xs : List α) : Json :=
  arr (xs.map f)

def object (members : List (String × Json)) : Json :=
  obj (members.map fun (k, v) => (Text.Quoted.encode k.toList, v))

def indent (depth : Nat) : List Char :=
  '\n' :: List.replicate (2 * depth) ' '

def quote (cs : List Char) : List Char :=
  '"' :: (cs ++ ['"'])

mutual

/-- A tree as text, one item or member a line, indented by its depth. -/
def prettyAt (depth : Nat) : Json → List Char
  | null => ['n', 'u', 'l', 'l']
  | bool true => ['t', 'r', 'u', 'e']
  | bool false => ['f', 'a', 'l', 's', 'e']
  | num l => l.text
  | str cs => quote cs
  | arr [] => ['[', ']']
  | arr (v :: vs) =>
    '[' :: (indent (depth + 1) ++ prettyAt (depth + 1) v ++ prettyItems (depth + 1) vs ++
      indent depth ++ [']'])
  | obj [] => ['\x7b', '\x7d']
  | obj ((k, v) :: ms) =>
    '\x7b' :: (indent (depth + 1) ++ quote k ++ [':', ' '] ++ prettyAt (depth + 1) v ++
      prettyMembers (depth + 1) ms ++ indent depth ++ ['\x7d'])

def prettyItems (depth : Nat) : List Json → List Char
  | [] => []
  | v :: vs => ',' :: (indent depth ++ prettyAt depth v ++ prettyItems depth vs)

def prettyMembers (depth : Nat) : List (List Char × Json) → List Char
  | [] => []
  | (k, v) :: ms =>
    ',' :: (indent depth ++ quote k ++ [':', ' '] ++ prettyAt depth v ++ prettyMembers depth ms)

end

def pretty (v : Json) : String :=
  String.ofList (prettyAt 0 v)

end Json

end Atelier
