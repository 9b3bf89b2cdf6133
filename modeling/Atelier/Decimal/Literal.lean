import Atelier.Decimal.Digits

/-!
Number literals: an optional minus sign, digits without a leading zero, and optional digits after a
point and after an exponent mark. Integers are read exactly. Other literals are read with a significand
of 64 bits, so the last place may be off by one; a literal beyond the range of numbers has no value.
-/

namespace Atelier.Decimal

structure Literal where
  negative : Bool
  whole : List Char
  /-- Digits after the point. -/
  fraction : Option (List Char)
  /-- Whether the exponent is negative, and its digits. -/
  exponent : Option (Bool × List Char)
deriving DecidableEq

namespace Literal

def sign (negative : Bool) : List Char :=
  if negative then ['-'] else []

/-- A literal as it is written: an exponent always has its sign. -/
def text (l : Literal) : List Char :=
  sign l.negative ++ l.whole ++
    (match l.fraction with
      | some ds => '.' :: ds
      | none => []) ++
    (match l.exponent with
      | some (negative, ds) => 'e' :: (if negative then '-' else '+') :: ds
      | none => [])

def ofInt (i : Int) : Literal :=
  ⟨i < 0, digits i.natAbs, none, none⟩

def spanDigits (cs : List Char) : List Char × List Char :=
  (cs.takeWhile Char.isDigit, cs.dropWhile Char.isDigit)

/-- The digits before the point: a single zero, or digits that do not start with one. -/
def readWhole : List Char → Option (List Char × List Char)
  | '0' :: rest =>
    match rest with
    | c :: _ => if c.isDigit then none else some (['0'], rest)
    | [] => some (['0'], [])
  | cs =>
    match spanDigits cs with
    | ([], _) => none
    | r => some r

def readFraction : List Char → Option (Option (List Char) × List Char)
  | '.' :: rest =>
    match spanDigits rest with
    | ([], _) => none
    | (ds, rest) => some (some ds, rest)
  | cs => some (none, cs)

def readExponent : List Char → Option (Option (Bool × List Char) × List Char)
  | c :: rest =>
    if c = 'e' ∨ c = 'E' then
      let (negative, rest) :=
        match rest with
        | '-' :: rest => (true, rest)
        | '+' :: rest => (false, rest)
        | rest => (false, rest)
      match spanDigits rest with
      | ([], _) => none
      | (ds, rest) => some (some (negative, ds), rest)
    else
      some (none, c :: rest)
  | [] => some (none, [])

/-- Reads a literal from the front of a text. -/
def read (cs : List Char) : Option (Literal × List Char) := do
  let (negative, cs) :=
    match cs with
    | '-' :: rest => (true, rest)
    | cs => (false, cs)
  let (whole, cs) ← readWhole cs
  let (fraction, cs) ← readFraction cs
  let (exponent, cs) ← readExponent cs
  return (⟨negative, whole, fraction, exponent⟩, cs)

/-- The value of a literal that is an integer. Minus zero is not one. -/
def int? (l : Literal) : Option Int :=
  match l.fraction, l.exponent with
  | none, none =>
    let n := value l.whole
    if l.negative then
      if n = 0 then none else some (-n)
    else
      some n
  | _, _ => none

def wordLimit : Nat := 18446744073709551616

/-- Takes digits into a significand for as long as it fits its word. -/
def fill (n : Nat) : List Char → Nat × List Char
  | [] => (n, [])
  | c :: cs =>
    let n' := n * 10 + digitValue c
    if n' < wordLimit then fill n' cs else (n, c :: cs)

/-- A power of ten as the nearest number. -/
def pow10 (k : Nat) : Float :=
  Float.ofScientific 1 false k

/-- Scales a significand by a power of ten, at most 308 at a time. -/
def scale : Nat → Float → Int → Option Float
  | 0, x, _ => some x
  | steps + 1, x, e =>
    if e.natAbs ≤ 308 then
      if 0 ≤ e then
        let y := x * pow10 e.natAbs
        if y.isInf then none else some y
      else
        some (x / pow10 e.natAbs)
    else if x == 0.0 then
      some x
    else if 0 ≤ e then
      none
    else
      scale steps (x / pow10 308) (e + 308)

/-- The exponent that a literal states. Beyond the signed words of 32 bits it has no value, which
leaves zero or nothing. -/
def stated? : Option (Bool × List Char) → Option Int
  | none => some 0
  | some (negative, ds) =>
    let n := value ds
    if n > 2147483647 then none else some (if negative then -n else n)

/-- The number next to a literal. -/
def float? (l : Literal) : Option Float := do
  let (n, dropped) := fill 0 l.whole
  let ds := l.fraction.getD []
  let (n, rest) := fill n ds
  let shift : Int := dropped.length - (ds.length - rest.length : Nat)
  let x ←
    match stated? l.exponent with
    | some e => scale 8 n.toUInt64.toFloat (shift + e)
    | none =>
      if n ≠ 0 ∧ (l.exponent.map (·.1)) = some false then none else some 0.0
  return if l.negative then -x else x

/-- The value of a literal where numbers with a fraction are expected: integers that fit into a word
are taken exactly, and rounded once. -/
def number? (l : Literal) : Option Float :=
  match l.int? with
  | some i =>
    if 0 ≤ i ∧ i < wordLimit then some i.toNat.toUInt64.toFloat
    else if -9223372036854775808 ≤ i ∧ i < 0 then some (-(i.natAbs.toUInt64.toFloat))
    else l.float?
  | none => l.float?

end Literal

end Atelier.Decimal
