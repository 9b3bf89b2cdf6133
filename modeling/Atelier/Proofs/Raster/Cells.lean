import Atelier.Canvas
import Mathlib.Data.Set.Card

/-!
The cells of pictures by their positions. Cells are kept row by row, so the index of a position off the side
would be that of a cell in the next row; positions are clipped before. What is written at a position is read
there, and nowhere else. A picture is determined by the cells at its positions, and so is the number of painted
ones.
-/

namespace Atelier

-- Sizes that a picture can have: its positions are signed words, and its bytes can be counted.
structure Size.IsFeasible (s : Size) : Prop where
  width_lt : s.width < 2 ^ 31
  height_lt : s.height < 2 ^ 31
  bytes_lt : s.width * s.height * 3 < 2 ^ 63

namespace Raster

variable {r r' : Raster} {x y a b : Int} {k : Rgb} {width height : Nat}

def size (r : Raster) : Size :=
  ⟨r.width, r.height⟩

-- Inside a row the columns are less than its length, so the index determines both.
theorem index?_injective {i : Nat} (h : r.index? x y = some i) (h' : r.index? a b = some i) :
    x = a ∧ y = b := by
  by_cases hp : r.Inside x y
  case neg =>
    rw [index?_of_not_inside hp] at h
    contradiction
  case pos =>
    by_cases hq : r.Inside a b
    case neg =>
      rw [index?_of_not_inside hq] at h'
      contradiction
    case pos =>
      rw [index?_of_inside hp] at h
      rw [index?_of_inside hq] at h'
      obtain ⟨⟨hx, hxw⟩, hy, _⟩ := hp
      obtain ⟨⟨ha, haw⟩, hb, _⟩ := hq
      have hs := sideWord_le r.width
      have hxw : x.toNat < r.width := by omega
      have haw : a.toNat < r.width := by omega
      have he : y.toNat * r.width + x.toNat = b.toNat * r.width + a.toNat :=
        Option.some.inj (h.trans h'.symm)
      have hrow : y.toNat = b.toNat := by
        have hd := congrArg (· / r.width) he
        have hw : 0 < r.width := by omega
        simpa only [Nat.mul_comm _ r.width, Nat.mul_add_div hw, Nat.div_eq_of_lt hxw,
          Nat.div_eq_of_lt haw, Nat.add_zero] using hd
      have hcol : x.toNat = a.toNat := by
        rw [hrow] at he
        exact Nat.add_left_cancel he
      omega

/-! Writing -/

@[simp]
theorem inside_set : (r.set x y k).Inside a b ↔ r.Inside a b := by
  simp only [Inside, width_set, height_set]

theorem set_of_inside (h : r.Inside x y) :
    r.set x y k = { r with cells := r.cells.setIfInBounds (y.toNat * r.width + x.toNat) k } := by
  rw [set, index?_of_inside h]

theorem set_of_not_inside (h : ¬r.Inside x y) : r.set x y k = r := by
  rw [set, index?_of_not_inside h]

-- Whatever its cells are, a raster changes only at the position that is set, and to what it is set to.
theorem get?_set_or (r : Raster) (x y a b : Int) (k : Rgb) :
    (r.set x y k).get? a b = r.get? a b ∨
      (r.set x y k).get? a b = some k ∧ r.Inside a b ∧ a = x ∧ b = y := by
  by_cases hp : r.Inside a b
  case neg =>
    rw [get?_of_not_inside hp, get?_of_not_inside (mt inside_set.mp hp)]
    exact .inl rfl
  case pos =>
    by_cases hq : r.Inside x y
    case neg =>
      rw [set_of_not_inside hq]
      exact .inl rfl
    case pos =>
      rw [get?_of_inside (inside_set.mpr hp), get?_of_inside hp, set_of_inside hq,
        Array.getElem?_setIfInBounds]
      split
      case isFalse => exact .inl rfl
      case isTrue hij =>
        split
        case isTrue =>
          have ⟨hx, hy⟩ := index?_injective (index?_of_inside hq) (hij ▸ index?_of_inside hp)
          exact .inr ⟨rfl, hp, hx.symm, hy.symm⟩
        case isFalse hs =>
          rw [← hij, Array.getElem?_eq_none (Nat.le_of_not_lt hs)]
          exact .inl rfl

theorem get?_set (h : r.WellFormed) :
    (r.set x y k).get? a b = if r.Inside a b ∧ a = x ∧ b = y then some k else r.get? a b := by
  split
  case isTrue he =>
    obtain ⟨hp, rfl, rfl⟩ := he
    have hlt : b.toNat * r.width + a.toNat < r.cells.size := h ▸ index?_lt (index?_of_inside hp)
    rw [get?_of_inside (inside_set.mpr hp), set_of_inside hp]
    exact Array.getElem?_setIfInBounds_self_of_lt hlt
  case isFalse he => exact (r.get?_set_or x y a b k).resolve_right fun hs => he hs.right

-- Cell after cell is written, each with what there is to be at its position.
def write (r : Raster) (f : Int → Int → Rgb) (ps : List (Int × Int)) : Raster :=
  ps.foldl (fun r p => r.set p.1 p.2 (f p.1 p.2)) r

theorem size_write (r : Raster) (f : Int → Int → Rgb) (ps : List (Int × Int)) :
    (r.write f ps).size = r.size := by
  unfold write
  induction ps generalizing r
  case nil => rfl
  case cons p ps ih => rw [List.foldl_cons, ih, size, width_set, height_set, size]

theorem wellFormed_write (h : r.WellFormed) (f : Int → Int → Rgb) (ps : List (Int × Int)) :
    (r.write f ps).WellFormed := by
  unfold write
  induction ps generalizing r
  case nil => exact h
  case cons p ps ih => exact ih (wellFormed_set h ..)

theorem get?_write_or (r : Raster) (f : Int → Int → Rgb) (ps : List (Int × Int)) (a b : Int) :
    (r.write f ps).get? a b = r.get? a b ∨
      (r.write f ps).get? a b = some (f a b) ∧ r.Inside a b ∧ (a, b) ∈ ps := by
  induction ps generalizing r
  case nil => exact .inl rfl
  case cons p ps ih =>
    cases ih (r.set p.1 p.2 (f p.1 p.2))
    case inr h => exact .inr ⟨h.left, inside_set.mp h.right.left, List.mem_cons_of_mem p h.right.right⟩
    case inl h =>
      cases r.get?_set_or p.1 p.2 a b (f p.1 p.2)
      case inl hs => exact .inl (h.trans hs)
      case inr hs =>
        obtain ⟨hk, hi, rfl, rfl⟩ := hs
        exact .inr ⟨h.trans hk, hi, List.mem_cons_self⟩

-- A position that is written again is written with the same, so the order does not matter.
theorem get?_write (h : r.WellFormed) (f : Int → Int → Rgb) (ps : List (Int × Int)) (a b : Int) :
    (r.write f ps).get? a b = if r.Inside a b ∧ (a, b) ∈ ps then some (f a b) else r.get? a b := by
  induction ps generalizing r
  case nil => simp [write]
  case cons p ps ih =>
    have hp : (a, b) = p ↔ a = p.1 ∧ b = p.2 := Prod.ext_iff
    have hw : r.write f (p :: ps) = (r.set p.1 p.2 (f p.1 p.2)).write f ps := rfl
    rw [hw, ih (wellFormed_set h ..), get?_set h]
    simp only [inside_set, List.mem_cons, hp]
    by_cases he : a = p.1 ∧ b = p.2
    case neg => simp only [he, and_false, false_or, if_false]
    case pos =>
      obtain ⟨rfl, rfl⟩ := he
      simp only [and_self, and_true, true_or]
      split <;> simp_all

theorem paint_eq_write (r : Raster) (x y : Int) (k : Rgb) (os : List Offset) :
    r.paint x y k os = r.write (fun _ _ => k) (os.map fun o => (x + o.dx, y + o.dy)) := by
  rw [paint, write, List.foldl_map]

theorem mem_map_add_iff {os : List Offset} :
    (a, b) ∈ os.map (fun o => (x + o.dx, y + o.dy)) ↔ ⟨a - x, b - y⟩ ∈ os := by
  rw [List.mem_map]
  constructor
  case mp =>
    rintro ⟨o, ho, he⟩
    obtain ⟨rfl, rfl⟩ := Prod.mk.inj he
    simpa using ho
  case mpr =>
    intro h
    exact ⟨_, h, by simp⟩

theorem get?_paint_or (r : Raster) (x y a b : Int) (k : Rgb) (os : List Offset) :
    (r.paint x y k os).get? a b = r.get? a b ∨
      (r.paint x y k os).get? a b = some k ∧ r.Inside a b ∧ ⟨a - x, b - y⟩ ∈ os := by
  rw [paint_eq_write, ← mem_map_add_iff]
  exact r.get?_write_or ..

theorem get?_paint (h : r.WellFormed) (os : List Offset) :
    (r.paint x y k os).get? a b = if r.Inside a b ∧ ⟨a - x, b - y⟩ ∈ os then some k else r.get? a b := by
  rw [paint_eq_write, get?_write h]
  simp only [mem_map_add_iff]

/-! Reading -/

theorem inside_iff (hf : r.size.IsFeasible) :
    r.Inside x y ↔ (0 ≤ x ∧ x < r.width) ∧ 0 ≤ y ∧ y < r.height := by
  have hw : r.width < 2 ^ 31 := hf.width_lt
  have hh : r.height < 2 ^ 31 := hf.height_lt
  rw [Inside, sideWord_of_lt hw, sideWord_of_lt hh]

theorem isSome_get?_iff (h : r.WellFormed) : (r.get? x y).isSome ↔ r.Inside x y := by
  by_cases hi : r.Inside x y
  case neg => simp [get?_of_not_inside hi, hi]
  case pos =>
    have hlt : y.toNat * r.width + x.toNat < r.cells.size := h ▸ index?_lt (index?_of_inside hi)
    simp [get?_of_inside hi, hlt, hi]

theorem get?_generate (f : Nat → Nat → Rgb) (x y : Int) :
    (generate width height f).get? x y =
      if (generate width height f).Inside x y then some (f x.toNat y.toNat) else none := by
  split
  case isFalse h => exact get?_of_not_inside h
  case isTrue h =>
    have hlt : y.toNat * width + x.toNat < width * height := index?_lt (index?_of_inside h)
    have hx : x.toNat < width := by
      have hs := sideWord_le width
      obtain ⟨⟨_, hx : x < sideWord width⟩, hy, _⟩ := h
      omega
    have hw : 0 < width := Nat.zero_lt_of_lt hx
    have hcol : (y.toNat * width + x.toNat) % width = x.toNat := by
      rw [Nat.mul_add_mod', Nat.mod_eq_of_lt hx]
    have hrow : (y.toNat * width + x.toNat) / width = y.toNat := by
      rw [Nat.mul_comm, Nat.mul_add_div hw, Nat.div_eq_of_lt hx, Nat.add_zero]
    rw [get?_of_inside h]
    simp only [generate, Array.getElem?_ofFn, hlt, dite_true, hcol, hrow]

theorem get?_filled (x y : Int) :
    (filled width height k).get? x y = if (filled width height k).Inside x y then some k else none := by
  split
  case isFalse h => exact get?_of_not_inside h
  case isTrue h =>
    rw [get?_of_inside h]
    simp only [filled, Array.getElem?_replicate]
    exact if_pos (index?_lt (index?_of_inside h))

-- The position of a cell, by where it is kept.
def position (r : Raster) (i : Nat) : Int × Int :=
  ((i % r.width : Nat), (i / r.width : Nat))

theorem position_injective (r : Raster) : r.position.Injective := by
  intro i j h
  obtain ⟨hx, hy⟩ := Prod.mk.inj h
  rw [← Nat.div_add_mod i r.width, ← Nat.div_add_mod j r.width, Int.ofNat_inj.mp hx, Int.ofNat_inj.mp hy]

theorem inside_position (hf : r.size.IsFeasible) {i : Nat} (h : i < r.width * r.height) :
    r.Inside (r.position i).1 (r.position i).2 := by
  have hw : 0 < r.width := Nat.pos_of_mul_pos_right (Nat.zero_lt_of_lt h)
  have hx := Nat.mod_lt i hw
  have hy : i / r.width < r.height := Nat.div_lt_of_lt_mul h
  rw [inside_iff hf]
  exact ⟨⟨Int.natCast_nonneg _, Int.ofNat_lt.mpr hx⟩, Int.natCast_nonneg _, Int.ofNat_lt.mpr hy⟩

theorem get?_position (hf : r.size.IsFeasible) {i : Nat} (h : i < r.width * r.height) :
    r.get? (r.position i).1 (r.position i).2 = r.cells[i]? := by
  rw [get?_of_inside (inside_position hf h), position, Int.toNat_natCast, Int.toNat_natCast,
    Nat.div_add_mod']

theorem exists_position (hf : r.size.IsFeasible) (h : r.Inside x y) :
    ∃ i, i < r.width * r.height ∧ r.position i = (x, y) := by
  refine ⟨_, index?_lt (index?_of_inside h), ?_⟩
  obtain ⟨⟨hx, hxw⟩, hy, _⟩ := (inside_iff hf).mp h
  have hlt : x.toNat < r.width := by omega
  have hw : 0 < r.width := Nat.zero_lt_of_lt hlt
  rw [position, Nat.mul_add_mod', Nat.mod_eq_of_lt hlt, Nat.mul_comm, Nat.mul_add_div hw,
    Nat.div_eq_of_lt hlt, Nat.add_zero, Int.toNat_of_nonneg hx, Int.toNat_of_nonneg hy]

theorem eq_of_get?_eq (h : r.WellFormed) (h' : r'.WellFormed) (hf : r.size.IsFeasible)
    (hs : r'.size = r.size) (hg : ∀ x y, r.Inside x y → r'.get? x y = r.get? x y) : r' = r := by
  have hw : r'.width = r.width := congrArg Size.width hs
  have hh : r'.height = r.height := congrArg Size.height hs
  have hc : r'.cells = r.cells := by
    apply Array.ext_getElem?
    intro i
    by_cases hi : i < r.width * r.height
    case pos =>
      have hp : r'.position i = r.position i := by rw [position, hw, position]
      have hg := hg _ _ (inside_position hf hi)
      rw [get?_position hf hi, ← hp, get?_position (hs ▸ hf) (hw ▸ hh ▸ hi)] at hg
      exact hg
    case neg =>
      have hi : r.cells.size ≤ i := h.trans_le (Nat.le_of_not_lt hi)
      have hi' : r'.cells.size ≤ i := by rwa [h', hw, hh, ← h]
      rw [Array.getElem?_eq_none hi, Array.getElem?_eq_none hi']
  obtain ⟨_, _, _⟩ := r
  obtain ⟨_, _, _⟩ := r'
  simp only at hw hh hc
  rw [hw, hh, hc]

/-! Painted cells -/

def painted (r : Raster) : Set (Int × Int) :=
  { p | ∃ v, r.get? p.1 p.2 = some v ∧ v ≠ Rgb.black }

theorem paintedCount_eq (r : Raster) : r.paintedCount = r.cells.toList.countP (!·.isBlack) := by
  have hn (cs : List Rgb) (n : Nat) :
      cs.foldl (fun n c => if c.isBlack then n else n + 1) n = n + cs.countP (!·.isBlack) := by
    induction cs generalizing n
    case nil => rfl
    case cons c cs ih =>
      rw [List.foldl_cons, ih, List.countP_cons]
      cases c.isBlack <;> simp
      omega
  rw [paintedCount, ← Array.foldl_toList, hn, Nat.zero_add]

theorem ncard_get (l : List α) (p : α → Bool) : { i : Fin l.length | p (l.get i) }.ncard = l.countP p := by
  have hs : { i : Fin l.length | p (l.get i) } =
      ((List.finRange l.length).filter fun i => p (l.get i)).toFinset := by
    ext i
    simp
  have hn := (List.nodup_finRange l.length).filter fun i => p (l.get i)
  conv_rhs => rw [← List.ofFn_get l, List.ofFn_eq_map, List.countP_map]
  rw [hs, Set.ncard_coe_finset, List.toFinset_card_of_nodup hn, ← List.countP_eq_length_filter]
  rfl

theorem mem_painted_iff {p : Int × Int} (h : r.WellFormed) (hf : r.size.IsFeasible) :
    p ∈ r.painted ↔ ∃ i : Fin r.cells.toList.length, !(r.cells.toList.get i).isBlack ∧ r.position i = p := by
  have hl : r.cells.toList.length = r.width * r.height := h
  have hb {v : Rgb} : v ≠ Rgb.black ↔ !v.isBlack := by simp [← Rgb.isBlack_iff]
  constructor
  case mp =>
    rintro ⟨v, hg, hv⟩
    have hi := (isSome_get?_iff h).mp (Option.isSome_of_eq_some hg)
    obtain ⟨i, hi, hp⟩ := exists_position hf hi
    rw [← congrArg Prod.fst hp, ← congrArg Prod.snd hp, get?_position hf hi,
      ← Array.getElem?_toList, List.getElem?_eq_getElem (hl ▸ hi)] at hg
    cases hg
    exact ⟨⟨i, hl ▸ hi⟩, hb.mp hv, hp⟩
  case mpr =>
    rintro ⟨i, hv, rfl⟩
    refine ⟨_, ?_, hb.mpr hv⟩
    rw [get?_position hf (hl ▸ i.isLt), ← Array.getElem?_toList, List.getElem?_eq_getElem i.isLt]
    rfl

-- Each painted cell is at one position, so counting cells counts positions.
theorem ncard_painted (h : r.WellFormed) (hf : r.size.IsFeasible) : r.painted.ncard = r.paintedCount := by
  have hp : r.painted = (fun i : Fin r.cells.toList.length => r.position i) ''
      { i | !(r.cells.toList.get i).isBlack } :=
    Set.ext fun _ => mem_painted_iff h hf
  have hi : Function.Injective fun i : Fin r.cells.toList.length => r.position i :=
    r.position_injective.comp Fin.val_injective
  rw [hp, Set.ncard_image_of_injective _ hi, ncard_get r.cells.toList (!·.isBlack), paintedCount_eq]

end Raster

end Atelier
