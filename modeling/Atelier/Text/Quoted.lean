/-!
Quoted text. Between the quotes, quotes, backslashes and control characters are written as escapes.
-/

namespace Atelier.Text.Quoted

def hexDigit (n : Nat) : Char :=
  if n < 10 then Char.ofNat (48 + n) else Char.ofNat (87 + n)

def hexValue? (c : Char) : Option Nat :=
  if '0' ≤ c ∧ c ≤ '9' then some (c.toNat - 48)
  else if 'a' ≤ c ∧ c ≤ 'f' then some (c.toNat - 87)
  else if 'A' ≤ c ∧ c ≤ 'F' then some (c.toNat - 55)
  else none

/-- Escapes of a backslash and one character, with the characters they stand for. A slash needs no
escape but may have one. -/
def short : List (Char × Char) :=
  [('"', '"'), ('\\', '\\'), ('/', '/'), ('b', '\x08'), ('f', '\x0c'), ('n', '\n'), ('r', '\x0d'),
    ('t', '\t')]

def encodeChar (c : Char) : List Char :=
  if c = '/' then
    [c]
  else
    match short.find? (·.2 == c) with
    | some (e, _) => ['\\', e]
    | none =>
      if c.toNat < 0x20 then
        ['\\', 'u', '0', '0', hexDigit (c.toNat / 16), hexDigit (c.toNat % 16)]
      else
        [c]

def encode (cs : List Char) : List Char :=
  cs.flatMap encodeChar

def hex4? (a b c d : Char) : Option Nat := do
  return (((← hexValue? a) * 16 + (← hexValue? b)) * 16 + (← hexValue? c)) * 16 + (← hexValue? d)

/-- The units of 16 bits that make a character only in pairs, a leading one before a trailing one. -/
def isLeading (n : Nat) : Bool := 0xd800 ≤ n && n < 0xdc00

def isTrailing (n : Nat) : Bool := 0xdc00 ≤ n && n < 0xe000

/-- The text that stands between two quotes, if its escapes make one. -/
def decode? : List Char → Option (List Char)
  | [] => some []
  | '\\' :: 'u' :: a :: b :: c :: d :: rest =>
    match hex4? a b c d with
    | none => none
    | some n =>
      if isTrailing n then
        none
      else if isLeading n then
        match rest with
        | '\\' :: 'u' :: a' :: b' :: c' :: d' :: rest =>
          match hex4? a' b' c' d' with
          | some m =>
            if isTrailing m then
              (decode? rest).map (Char.ofNat (0x10000 + (n - 0xd800) * 0x400 + (m - 0xdc00)) :: ·)
            else
              none
          | none => none
        | _ => none
      else
        (decode? rest).map (Char.ofNat n :: ·)
  | '\\' :: e :: rest =>
    match short.lookup e with
    | some c => (decode? rest).map (c :: ·)
    | none => none
  | '\\' :: [] => none
  | c :: rest => (decode? rest).map (c :: ·)

/-- Splits a text after the quote that ends a quoted one. The part in front is kept as it is written;
its escapes must be complete, but need not make a text. -/
def split? : List Char → Option (List Char × List Char)
  | [] => none
  | '"' :: rest => some ([], rest)
  | '\\' :: 'u' :: a :: b :: c :: d :: rest =>
    match hex4? a b c d with
    | some _ => (split? rest).map fun (cs, rest) => ('\\' :: 'u' :: a :: b :: c :: d :: cs, rest)
    | none => none
  | '\\' :: e :: rest =>
    if (short.lookup e).isSome then
      (split? rest).map fun (cs, rest) => ('\\' :: e :: cs, rest)
    else
      none
  | '\\' :: [] => none
  | c :: rest =>
    if c.toNat < 0x20 then none else (split? rest).map fun (cs, rest) => (c :: cs, rest)

end Atelier.Text.Quoted
