import Atelier.Json

/-!
What the parts of a JSON tree stand for. Each function says when a tree has a value of one kind, and
which.
-/

namespace Atelier.Json

def bool? : Json → Option Bool
  | bool b => some b
  | _ => none

def text? : Json → Option String
  | str cs => (Text.Quoted.decode? cs).map String.ofList
  | _ => none

/-- Integers from `lo` to `hi`. -/
def int? (lo hi : Int) : Json → Option Int
  | num l => l.int?.filter fun i => lo ≤ i && i ≤ hi
  | _ => none

def int32? : Json → Option Int :=
  int? (-2147483648) 2147483647

def nat32? (v : Json) : Option Nat :=
  (v.int? 0 4294967295).map Int.toNat

def nat64? (v : Json) : Option Nat :=
  (v.int? 0 18446744073709551615).map Int.toNat

def float? : Json → Option Float
  | num l => l.number?
  | _ => none

def list? (f : Json → Option α) : Json → Option (List α)
  | arr vs => vs.mapM f
  | _ => none

def option? (f : Json → Option α) : Json → Option (Option α)
  | null => some none
  | v => (f v).map some

/-- Names of alternatives stand alone, or as the only key of an object. The value of the key must be
nothing, where `empty` tells what else counts as nothing. -/
def name? (empty : Json → Bool) : Json → Option String
  | obj [(k, v)] =>
    match v with
    | null => (Text.Quoted.decode? k).map String.ofList
    | v => if empty v then (Text.Quoted.decode? k).map String.ofList else none
  | v => v.text?

def choice? (ofName? : String → Option α) (v : Json) : Option α :=
  (v.name? fun _ => false).bind ofName?

def isEmptyObject : Json → Bool
  | obj [] => true
  | _ => false

/-- In values that are taken up whole, an empty object counts as nothing too. -/
def heldChoice? (ofName? : String → Option α) (v : Json) : Option α :=
  (v.name? isEmptyObject).bind ofName?

mutual

/-- Whether a value can be taken up whole: all of its literals stand for something, and its parts are
nested at most `depth` deep. -/
def isHeld (depth : Nat) : Json → Bool
  | null => true
  | bool _ => true
  | num l => l.number?.isSome
  | str cs => (Text.Quoted.decode? cs).isSome
  | arr vs => depth != 0 && areHeld (depth - 1) vs
  | obj ms => depth != 0 && membersHeld (depth - 1) ms

def areHeld (depth : Nat) : List Json → Bool
  | [] => true
  | v :: vs => isHeld depth v && areHeld depth vs

def membersHeld (depth : Nat) : List (List Char × Json) → Bool
  | [] => true
  | (k, v) :: ms => (Text.Quoted.decode? k).isSome && isHeld depth v && membersHeld depth ms

end

/-- Members of an object under the texts of their keys. -/
def members? : Json → Option (List (String × Json))
  | obj ms => ms.mapM fun (k, v) => (Text.Quoted.decode? k).map (String.ofList ·, v)
  | _ => none

/-- A record with named fields. A field may be left out. -/
structure Record where
  field? : String → Option Json

namespace Record

/-- A record of members. Fields that have a name of the record must not be repeated; others are of no
interest. -/
def ofMembers? (names : List String) (ms : List (String × Json)) : Option Record :=
  if names.all fun n => ms.countP (·.1 == n) ≤ 1 then some ⟨(ms.lookup ·)⟩ else none

def required (r : Record) (name : String) (f : Json → Option α) : Option α :=
  (r.field? name).bind f

def withDefault (r : Record) (name : String) (f : Json → Option α) (default : α) : Option α :=
  match r.field? name with
  | some v => f v
  | none => some default

end Record

/-- A record is an object, or an array of its fields from the first on. -/
def record? (names : List String) : Json → Option Record
  | arr vs => if vs.length ≤ names.length then some ⟨((names.zip vs).lookup ·)⟩ else none
  | v => v.members?.bind (Record.ofMembers? names)

end Atelier.Json
