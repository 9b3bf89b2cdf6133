import Atelier.Checked
import Atelier.Rounding

/-!
Random words from a seed: a ChaCha key stream with twelve rounds. The state is the key, the number of
the next block and the words of the current block that nobody has taken yet.
-/

namespace Atelier

namespace ChaCha

/-- Four words that are worked on lane by lane. -/
structure Row where
  a : UInt32
  b : UInt32
  c : UInt32
  d : UInt32
deriving DecidableEq

namespace Row

def add (p q : Row) : Row := ⟨p.a + q.a, p.b + q.b, p.c + q.c, p.d + q.d⟩

def rotl (w n : UInt32) : UInt32 := (w <<< n) ||| (w >>> (32 - n))

/-- Exclusive or, lane by lane, then every lane turned left by `n` bits. -/
def xorTurn (p q : Row) (n : UInt32) : Row :=
  ⟨rotl (p.a ^^^ q.a) n, rotl (p.b ^^^ q.b) n, rotl (p.c ^^^ q.c) n, rotl (p.d ^^^ q.d) n⟩

/-- Moves every lane one place to the left. -/
def shift (p : Row) : Row := ⟨p.b, p.c, p.d, p.a⟩

def toList (p : Row) : List UInt32 := [p.a, p.b, p.c, p.d]

end Row

structure State where
  r₀ : Row
  r₁ : Row
  r₂ : Row
  r₃ : Row
deriving DecidableEq

namespace State

/-- Four quarter rounds, one in each column. -/
def columns (s : State) : State :=
  let a := s.r₀.add s.r₁
  let d := s.r₃.xorTurn a 16
  let c := s.r₂.add d
  let b := s.r₁.xorTurn c 12
  let a := a.add b
  let d := d.xorTurn a 8
  let c := c.add d
  let b := b.xorTurn c 7
  ⟨a, b, c, d⟩

/-- Turns diagonals into columns. -/
def skew (s : State) : State :=
  ⟨s.r₀, s.r₁.shift, s.r₂.shift.shift, s.r₃.shift.shift.shift⟩

/-- Turns the columns of a skewed state back into diagonals. -/
def unskew (s : State) : State :=
  ⟨s.r₀, s.r₁.shift.shift.shift, s.r₂.shift.shift, s.r₃.shift⟩

def doubleRound (s : State) : State :=
  s.columns.skew.columns.unskew

def add (s t : State) : State :=
  ⟨s.r₀.add t.r₀, s.r₁.add t.r₁, s.r₂.add t.r₂, s.r₃.add t.r₃⟩

def toList (s : State) : List UInt32 :=
  s.r₀.toList ++ s.r₁.toList ++ s.r₂.toList ++ s.r₃.toList

end State

/-- The sixteen words of one block of the stream. -/
def block (k₁ k₂ : Row) (n : UInt64) : List UInt32 :=
  let start : State :=
    ⟨⟨0x61707865, 0x3320646e, 0x79622d32, 0x6b206574⟩, k₁, k₂, ⟨n.toUInt32, (n >>> 32).toUInt32, 0, 0⟩⟩
  let mixed := start.doubleRound.doubleRound.doubleRound.doubleRound.doubleRound.doubleRound
  (mixed.add start).toList

end ChaCha

structure Random where
  key₁ : ChaCha.Row
  key₂ : ChaCha.Row
  block : UInt64
  ready : List UInt32
deriving DecidableEq

namespace Random

/-- The words that a seed is spread into: a linear congruence whose states are folded to 32 bits. -/
def seedWords : Nat → UInt64 → List UInt32
  | 0, _ => []
  | n + 1, s =>
    let s := s * 6364136223846793005 + 11634580027462260723
    let x := (((s >>> 18) ^^^ s) >>> 27).toUInt32
    let turn := (s >>> 59).toUInt32
    ((x >>> turn) ||| (x <<< ((32 - turn) &&& 31))) :: seedWords n s

def ofSeed (seed : UInt64) : Random :=
  match seedWords 8 seed with
  | [a, b, c, d, e, f, g, h] => ⟨⟨a, b, c, d⟩, ⟨e, f, g, h⟩, 0, []⟩
  | _ => ⟨⟨0, 0, 0, 0⟩, ⟨0, 0, 0, 0⟩, 0, []⟩

def word (r : Random) : UInt32 × Random :=
  match r.ready with
  | w :: ws => (w, { r with ready := ws })
  | [] =>
    let ws := ChaCha.block r.key₁ r.key₂ r.block
    (ws.headD 0, { r with block := r.block + 1, ready := ws.tail })

/-- Two words, the low half first. -/
def word64 (r : Random) : UInt64 × Random :=
  let (lo, r) := r.word
  let (hi, r) := r.word
  (lo.toUInt64 ||| (hi.toUInt64 <<< 32), r)

/-- A number below `n`: the high half of the product of a word and `n`. Words whose product has a low
half above `zone` would favour some numbers, so they are passed over, at most `tries` of them. -/
def belowIn (n zone : Nat) : Nat → Random → Nat × Random
  | 0, r =>
    let (w, r) := r.word
    (w.toNat * n / 4294967296, r)
  | tries + 1, r =>
    let (w, r) := r.word
    if w.toNat * n % 4294967296 ≤ zone then
      (w.toNat * n / 4294967296, r)
    else
      belowIn n zone tries r

/-- A number below `n`, for positive `n` of at most 32 bits. -/
def below (n : Nat) (r : Random) : Nat × Random :=
  belowIn n ((n <<< (31 - n.log2)) - 1) 1024 r

theorem belowIn_lt {n zone tries : Nat} {r : Random} (h : 0 < n) :
    (belowIn n zone tries r).1 < n := by
  have key (w : UInt32) : w.toNat * n / 4294967296 < n := by
    apply Nat.div_lt_of_lt_mul
    exact Nat.mul_lt_mul_of_pos_right w.toNat_lt h
  induction tries generalizing r with
  | zero => exact key _
  | succ tries ih =>
    simp only [belowIn]
    split
    · exact key _
    · exact ih

theorem below_lt {n : Nat} {r : Random} (h : 0 < n) : (r.below n).1 < n :=
  belowIn_lt h

/-- One of the elements, or nothing when there are none. -/
def choose? (xs : List α) (r : Random) : Option α × Random :=
  if xs.isEmpty then
    (none, r)
  else
    let (i, r) := r.below xs.length
    (xs[i]?, r)

/-- Swaps the last elements, from the end down to position `stop`, each with one at or before it. -/
def shuffleDown (stop : Nat) : Nat → Array α → Random → Array α × Random
  | 0, xs, r => (xs, r)
  | i + 1, xs, r =>
    if i < stop then
      (xs, r)
    else
      let (j, r) := r.below (i + 1)
      shuffleDown stop i (xs.swapIfInBounds i j) r

/-- A random selection of `amount` elements, in random order. -/
def sample (amount : Nat) (xs : List α) (r : Random) : List α × Random :=
  let stop := xs.length - amount
  let (ys, r) := shuffleDown stop xs.length xs.toArray r
  (ys.toList.drop stop, r)

/-- True with probability `p`. Certainty takes no words from the stream. -/
def flip (p : Float) (r : Random) : Bool × Random :=
  if p == 1.0 then
    (true, r)
  else
    let (w, r) := r.word64
    (decide (w < (p * 18446744073709551616.0).toUInt64), r)

/-- A toss with any number for a probability: numbers below zero never, those above one always. -/
def chance (p : Float) (r : Random) : Checked (Bool × Random) :=
  let p := clampFloat 0.0 1.0 p
  if p.isNaN then .error .notAProbability else .ok (r.flip p)

end Random

end Atelier
