/-!
Text: blanks, letter case and searching. A text is worked on as its list of characters.
-/

namespace Atelier.Text

/-- Characters with the property White_Space, by their code points. -/
def blanks : List Nat :=
  [0x9, 0xa, 0xb, 0xc, 0xd, 0x20, 0x85, 0xa0, 0x1680, 0x2000, 0x2001, 0x2002, 0x2003, 0x2004, 0x2005,
    0x2006, 0x2007, 0x2008, 0x2009, 0x200a, 0x2028, 0x2029, 0x202f, 0x205f, 0x3000]

def isBlank (c : Char) : Bool :=
  blanks.contains c.toNat

/-- Drops the blanks at both ends. -/
def trimChars (cs : List Char) : List Char :=
  ((cs.dropWhile isBlank).reverse.dropWhile isBlank).reverse

def trim (s : String) : String :=
  String.ofList (trimChars s.toList)

-- The small letters of all other characters are single characters outside ASCII. So this tells the
-- ASCII words in a text, and its length, without the other letters' tables.
/-- Small letters, as far as ASCII words and the number of characters go. Other capitals stay. -/
def lowerChar (c : Char) : List Char :=
  if c = '\u212a' then ['k']
  else if c = '\u0130' then ['i', '\u0307']
  else [c.toLower]

def lower (cs : List Char) : List Char :=
  cs.flatMap lowerChar

/-- Whether a word occurs in a text. -/
def contains (word : List Char) : List Char → Bool
  | [] => word.isEmpty
  | c :: cs => word.isPrefixOf (c :: cs) || contains word cs

end Atelier.Text
