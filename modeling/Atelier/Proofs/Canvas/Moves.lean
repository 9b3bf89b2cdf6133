import Atelier.Proofs.Canvas.Fitted
import Atelier.Proofs.Canvas.Stroke

/-!
Moves of a cursor in one direction, over and over. Each goes seven cells on, the last one as far as the edge is,
and after that nothing changes any more. With the pen down there is a stroke at each place that is come to.
-/

namespace Atelier.Canvas

-- Some equal moves, with what each of them tells.
def moves (c : Canvas) (d : Direction) : Nat → Checked (Canvas × List MoveOutcome)
  | 0     => return (c, [])
  | n + 1 => do
    let (c, o) ← c.move d
    let (c, os) ← c.moves d n
    return (c, o :: os)

-- Strokes of several cursors, one after the other, with the number of cells that each of them paints.
def strokesAt (c : Canvas) : List Cursor → Checked (Canvas × List Nat)
  | []      => return (c, [])
  | k :: ks => do
    let (c, n) ← { c with cursor := k }.stroke
    let (c, ns) ← c.strokesAt ks
    return (c, n :: ns)

-- Number of cells between the cursor and the edge.
def distance (c : Canvas) : Direction → Nat
  | .up    => c.cursor.y.toNat
  | .down  => (c.height - 1 - c.cursor.y).toNat
  | .left  => c.cursor.x.toNat
  | .right => (c.width - 1 - c.cursor.x).toNat

-- The cursor at some strides from its place, or at the edge.
def onward (c : Canvas) (d : Direction) (n : Nat) : Cursor :=
  { c.cursor with
    x := nearest c.width (c.cursor.x + d.dx * (7 * n))
    y := nearest c.height (c.cursor.y + d.dy * (7 * n)) }

variable {c c' c₁ : Canvas} {d : Direction} {o : MoveOutcome} {os : List MoveOutcome} {n : Nat}

theorem isOn_of_inside (h : c.raster.Inside c.cursor.x c.cursor.y) : c.cursor.IsOn c.raster.size := by
  obtain ⟨⟨hx, hxw⟩, hy, hyh⟩ := h
  have hw := Raster.sideWord_le c.raster.width
  have hh := Raster.sideWord_le c.raster.height
  exact ⟨⟨hx, Int.lt_of_lt_of_le hxw hw⟩, hy, Int.lt_of_lt_of_le hyh hh⟩

theorem inside_of_isOn {k : Cursor} (h : k.IsOn c.raster.size) (hw : c.width + 20 ≤ 2 ^ 31)
    (hh : c.height + 20 ≤ 2 ^ 31) : c.raster.Inside k.x k.y := by
  unfold width at hw
  unfold height at hh
  rw [Raster.Inside, Raster.sideWord_of_lt (by omega), Raster.sideWord_of_lt (by omega)]
  exact h

/-! Places on the way -/

-- To stop at the edge on the way is to stop at it in the end, as long as there is no way back.
theorem nearest_nearest_add {side : Nat} {i a b : Int} (h₁ : 0 ≤ i) (h₂ : i < side)
    (h : 0 ≤ a ∧ 0 ≤ b ∨ a ≤ 0 ∧ b ≤ 0) :
    nearest side (nearest side (i + a) + b) = nearest side (i + (a + b)) := by
  unfold nearest
  omega

theorem isOn_onward (h : c.cursor.IsOn c.raster.size) (d : Direction) (n : Nat) :
    (c.onward d n).IsOn c.raster.size := by
  obtain ⟨⟨hx, hxw⟩, hy, hyh⟩ := isOn_iff.mp h
  exact isOn_nearest (Int.natCast_pos.mp (Int.lt_of_le_of_lt hx hxw))
    (Int.natCast_pos.mp (Int.lt_of_le_of_lt hy hyh)) _ _

theorem landing_eq_iff_distance (h : c.cursor.IsOn c.raster.size) (d : Direction) :
    c.landing d = c.cursor ↔ c.distance d = 0 := by
  obtain ⟨⟨hx, hxw⟩, hy, hyh⟩ := isOn_iff.mp h
  rw [landing_eq_iff]
  cases d
  all_goals
    simp only [distance, nearest, Direction.dx, Direction.dy, stride]
    omega

theorem onward_of_distance_eq_zero (h : c.cursor.IsOn c.raster.size) (hd : c.distance d = 0) (n : Nat) :
    c.onward d n = c.cursor := by
  obtain ⟨⟨hx, hxw⟩, hy, hyh⟩ := isOn_iff.mp h
  have ⟨hnx, hny⟩ : nearest c.width (c.cursor.x + d.dx * (7 * n)) = c.cursor.x ∧
      nearest c.height (c.cursor.y + d.dy * (7 * n)) = c.cursor.y := by
    cases d
    all_goals
      simp only [distance, nearest, Direction.dx, Direction.dy] at hd ⊢
      omega
  rw [onward, hnx, hny]

-- From the next place, one move less has to be made.
theorem onward_succ (h : c.cursor.IsOn c.raster.size) (hk : c₁.cursor = c.onward d 1)
    (hs : c₁.raster.size = c.raster.size) (n : Nat) : c₁.onward d n = c.onward d (n + 1) := by
  obtain ⟨⟨hx, hxw⟩, hy, hyh⟩ := h
  obtain ⟨hw, hh⟩ : c₁.width = c.width ∧ c₁.height = c.height := Size.mk.inj hs
  have hn (e : Int) : e * (7 * (1 : Nat)) + e * (7 * n) = e * (7 * (n + 1 : Nat)) := by
    rw [← Int.mul_add]
    congr 1
    omega
  have ⟨hdx, hdy⟩ : (0 ≤ d.dx * (7 * (1 : Nat)) ∧ 0 ≤ d.dx * (7 * n) ∨
        d.dx * (7 * (1 : Nat)) ≤ 0 ∧ d.dx * (7 * n) ≤ 0) ∧
      (0 ≤ d.dy * (7 * (1 : Nat)) ∧ 0 ≤ d.dy * (7 * n) ∨
        d.dy * (7 * (1 : Nat)) ≤ 0 ∧ d.dy * (7 * n) ≤ 0) := by
    cases d
    all_goals
      simp only [Direction.dx, Direction.dy]
      omega
  have hnx := nearest_nearest_add hx hxw hdx
  have hny := nearest_nearest_add hy hyh hdy
  rw [hn] at hnx hny
  simp only [onward, hk, hw, hh]
  exact congrArg₂ (fun x y => { c.cursor with x := x, y := y }) hnx hny

theorem distance_onward (h : c.cursor.IsOn c.raster.size) (hk : c₁.cursor = c.onward d n)
    (hs : c₁.raster.size = c.raster.size) : c₁.distance d = c.distance d - 7 * n := by
  obtain ⟨⟨hx, hxw⟩, hy, hyh⟩ := isOn_iff.mp h
  obtain ⟨hw, hh⟩ : c₁.width = c.width ∧ c₁.height = c.height := Size.mk.inj hs
  cases d
  all_goals
    simp only [distance, hk, hw, hh, onward, nearest, Direction.dx, Direction.dy]
    omega

/-! One move -/

theorem Lands.isOn (h : c.cursor.IsOn c.raster.size) (hl : c.Lands d c' o) :
    c'.cursor.IsOn c'.raster.size ∧ c'.raster.size = c.raster.size := by
  obtain _ | _ | ⟨_, _, hs⟩ := hl
  case stays => exact ⟨h, rfl⟩
  case glides => exact ⟨isOn_onward h d 1, rfl⟩
  case paints =>
    have hz : c'.raster.size = c.raster.size := (sameFrame_stroke hs).size
    rw [hz, (stroke_eq_ok hs).left]
    exact ⟨isOn_onward h d 1, rfl⟩

theorem exists_move (hk : c.cursor.IsOn c.raster.size) (hw : c.width + 20 ≤ 2 ^ 31)
    (hh : c.height + 20 ≤ 2 ^ 31) (d : Direction) : ∃ c' o, c.move d = .ok (c', o) := by
  have ⟨hfx, hfy⟩ := fits_landing hk hw hh d
  rw [move_of_fits hfx hfy]
  split
  case isTrue => exact ⟨_, _, rfl⟩
  case isFalse =>
    split
    case isFalse => exact ⟨_, _, rfl⟩
    case isTrue =>
      have hi := inside_of_isOn (isOn_onward hk d 1) hw hh
      have ⟨c', n, hs⟩ := exists_stroke (c := { c with cursor := c.landing d }) hi hw hh
      rw [hs]
      exact ⟨_, _, rfl⟩

/-! Many moves -/

-- How many of some moves change the position.
def movesToEdge (c : Canvas) (d : Direction) (n : Nat) : Nat :=
  min n ((c.distance d + 6) / 7)

-- The first places that moves come to.
def stations (c : Canvas) (d : Direction) (m : Nat) : List Cursor :=
  (List.range m).map fun i => c.onward d (i + 1)

-- What a run of moves does.
structure Travels (c : Canvas) (d : Direction) (n : Nat) (c' : Canvas) (os : List MoveOutcome) : Prop where
  size : c'.raster.size = c.raster.size
  cursor : c'.cursor = c.onward d n
  glided : c.cursor.penDown = false → c' = { c with cursor := c.onward d n } ∧
    os = .replicate (c.movesToEdge d n) ⟨true, 0⟩ ++ .replicate (n - c.movesToEdge d n) ⟨false, 0⟩
  painted : c.cursor.penDown = true → ∃ ns, c.strokesAt (c.stations d (c.movesToEdge d n)) = .ok (c', ns) ∧
    os = ns.map (.mk true) ++ .replicate (n - c.movesToEdge d n) ⟨false, 0⟩

theorem onward_zero (h : c.cursor.IsOn c.raster.size) (d : Direction) : c.onward d 0 = c.cursor := by
  obtain ⟨⟨hx, hxw⟩, hy, hyh⟩ := h
  have hz (e : Int) : e * (7 * (0 : Nat)) = 0 := Int.mul_zero e
  have hnx : nearest c.width c.cursor.x = _ := nearest_of_mem hx hxw
  have hny : nearest c.height c.cursor.y = _ := nearest_of_mem hy hyh
  simp only [onward, hz, Int.add_zero, hnx, hny]

theorem movesToEdge_of_distance_eq_zero (hd : c.distance d = 0) (n : Nat) : c.movesToEdge d n = 0 := by
  rw [movesToEdge, hd]
  exact Nat.min_zero n

theorem movesToEdge_succ (h : c.cursor.IsOn c.raster.size) (hd : 0 < c.distance d)
    (hk : c₁.cursor = c.onward d 1) (hs : c₁.raster.size = c.raster.size) (n : Nat) :
    c.movesToEdge d (n + 1) = c₁.movesToEdge d n + 1 := by
  rw [movesToEdge, movesToEdge, distance_onward h hk hs]
  omega

theorem stations_succ (h : c.cursor.IsOn c.raster.size) (hk : c₁.cursor = c.onward d 1)
    (hs : c₁.raster.size = c.raster.size) (m : Nat) :
    c.stations d (m + 1) = c.onward d 1 :: c₁.stations d m := by
  rw [stations, List.range_succ_eq_map, List.map_cons, List.map_map, stations]
  exact congrArg _ (List.map_congr_left fun i _ => (onward_succ h hk hs (i + 1)).symm)

theorem Travels.zero (h : c.cursor.IsOn c.raster.size) (d : Direction) : c.Travels d 0 c [] := by
  have ho := onward_zero h d
  have hm : c.movesToEdge d 0 = 0 := Nat.zero_min _
  refine ⟨rfl, ho.symm, fun _ => ⟨by rw [ho], by rw [hm]; rfl⟩, fun _ => ⟨[], by rw [hm]; rfl, by rw [hm]; rfl⟩⟩

theorem Travels.stays (h : c.cursor.IsOn c.raster.size) (hd : c.distance d = 0) (ht : c.Travels d n c' os) :
    c.Travels d (n + 1) c' (⟨false, 0⟩ :: os) := by
  have hm := movesToEdge_of_distance_eq_zero hd
  have ho := onward_of_distance_eq_zero h hd
  obtain ⟨hs, hc, hg, hp⟩ := ht
  simp only [ho, hm] at hc hg hp
  refine ⟨hs, by rw [hc, ho], fun hu => ?glided, fun hu => ?painted⟩
  case glided =>
    obtain ⟨hc, rfl⟩ := hg hu
    rw [ho, hm]
    exact ⟨hc, rfl⟩
  case painted =>
    obtain ⟨ns, hk, rfl⟩ := hp hu
    rw [hm]
    cases hk
    exact ⟨[], rfl, rfl⟩

theorem Travels.glides (h : c.cursor.IsOn c.raster.size) (hd : 0 < c.distance d) (hu : c.cursor.penDown = false)
    (ht : Travels { c with cursor := c.onward d 1 } d n c' os) : c.Travels d (n + 1) c' (⟨true, 0⟩ :: os) := by
  have ho := @onward_succ c { c with cursor := c.onward d 1 } d h rfl rfl n
  have hm := @movesToEdge_succ c { c with cursor := c.onward d 1 } d h hd rfl rfl n
  obtain ⟨hs, hc, hg, _⟩ := ht
  obtain ⟨hc', rfl⟩ := hg hu
  rw [ho] at hc hc'
  refine ⟨hs, hc, fun _ => ⟨hc', ?_⟩, fun hp => absurd (hu.symm.trans hp) nofun⟩
  rw [hm, Nat.add_sub_add_right]
  rfl

theorem Travels.paints (h : c.cursor.IsOn c.raster.size) (hd : 0 < c.distance d) (hp : c.cursor.penDown = true)
    {m : Nat} (hs : { c with cursor := c.onward d 1 }.stroke = .ok (c₁, m)) (ht : c₁.Travels d n c' os) :
    c.Travels d (n + 1) c' (⟨true, m⟩ :: os) := by
  have hr : c₁.raster.size = c.raster.size := (sameFrame_stroke hs).size
  have hk : c₁.cursor = c.onward d 1 := by rw [(stroke_eq_ok hs).left]
  have hm := movesToEdge_succ h hd hk hr n
  obtain ⟨hz, hc, _, hg⟩ := ht
  obtain ⟨ns, hn, rfl⟩ := hg (by rw [hk]; exact hp)
  refine ⟨hz.trans hr, by rw [hc, onward_succ h hk hr], fun hu => absurd (hu.symm.trans hp) nofun,
    fun _ => ⟨m :: ns, ?_, ?_⟩⟩
  case refine_1 =>
    rw [hm, stations_succ h hk hr, strokesAt, hs]
    simp only [Checked.ok_bind, hn]
    rfl
  case refine_2 =>
    rw [hm, Nat.add_sub_add_right]
    rfl

theorem travels_of_moves (h : c.cursor.IsOn c.raster.size) (hc : c.moves d n = .ok (c', os)) :
    c.Travels d n c' os := by
  induction n generalizing c os
  case zero =>
    cases hc
    exact .zero h d
  case succ n ih =>
    obtain ⟨⟨c₁, o⟩, hm, hc⟩ := Checked.bind_eq_ok_iff.mp hc
    obtain ⟨⟨c₂, os₁⟩, hn, hc⟩ := Checked.bind_eq_ok_iff.mp hc
    cases hc
    have hl := lands_of_move hm
    have ⟨h₁, _⟩ := hl.isOn h
    have hd := landing_eq_iff_distance h d
    obtain hz | ⟨hz, hu⟩ | ⟨hz, hp, hs⟩ := hl
    case stays => exact .stays h (hd.mp hz) (ih h hn)
    case glides => exact .glides h (Nat.pos_of_ne_zero (mt hd.mpr hz)) hu (ih h₁ hn)
    case paints => exact .paints h (Nat.pos_of_ne_zero (mt hd.mpr hz)) hp hs (ih h₁ hn)

theorem exists_moves (h : c.cursor.IsOn c.raster.size) (hw : c.width + 20 ≤ 2 ^ 31)
    (hh : c.height + 20 ≤ 2 ^ 31) (d : Direction) (n : Nat) : ∃ c' os, c.moves d n = .ok (c', os) := by
  induction n generalizing c
  case zero => exact ⟨c, [], rfl⟩
  case succ n ih =>
    have ⟨c₁, o, hm⟩ := exists_move h hw hh d
    have ⟨h₁, hs⟩ := (lands_of_move hm).isOn h
    obtain ⟨hcw, hch⟩ : c₁.width = c.width ∧ c₁.height = c.height := Size.mk.inj hs
    have ⟨c', os, hn⟩ := ih h₁ (hcw ▸ hw) (hch ▸ hh)
    refine ⟨c', o :: os, ?_⟩
    rw [moves, hm]
    simp only [Checked.ok_bind, hn]
    rfl

theorem length_of_strokesAt {ks : List Cursor} {ns : List Nat} (h : c.strokesAt ks = .ok (c', ns)) :
    ns.length = ks.length := by
  induction ks generalizing c ns
  case nil =>
    cases h
    rfl
  case cons k ks ih =>
    obtain ⟨⟨c₁, m⟩, _, h⟩ := Checked.bind_eq_ok_iff.mp h
    obtain ⟨⟨c₂, ms⟩, hk, h⟩ := Checked.bind_eq_ok_iff.mp h
    cases h
    exact congrArg (· + 1) (ih hk)

theorem Travels.moved (ht : c.Travels d n c' os) :
    os.map MoveOutcome.moved =
      .replicate (c.movesToEdge d n) true ++ .replicate (n - c.movesToEdge d n) false := by
  cases hp : c.cursor.penDown
  case false =>
    obtain ⟨_, rfl⟩ := ht.glided hp
    rw [List.map_append, List.map_replicate, List.map_replicate]
  case true =>
    obtain ⟨ns, hs, rfl⟩ := ht.painted hp
    have hl : ns.length = c.movesToEdge d n := by
      rw [length_of_strokesAt hs, stations, List.length_map, List.length_range]
    rw [List.map_append, List.map_map, List.map_replicate]
    exact congrArg (· ++ _) (hl ▸ List.map_const' ..)

theorem Travels.eq_of_distance_eq_zero (h : c.cursor.IsOn c.raster.size) (hd : c.distance d = 0)
    (ht : c.Travels d n c' os) : c' = c ∧ os = .replicate n ⟨false, 0⟩ := by
  obtain ⟨_, _, hg, hp⟩ := ht
  rw [movesToEdge_of_distance_eq_zero hd, onward_of_distance_eq_zero h hd] at hg
  rw [movesToEdge_of_distance_eq_zero hd] at hp
  cases hu : c.cursor.penDown
  case false => exact hg hu
  case true =>
    obtain ⟨ns, hs, rfl⟩ := hp hu
    cases hs
    exact ⟨rfl, rfl⟩

-- The moves that change the position come first, until the edge is reached. With the pen down, each of them
-- paints at its own place. Near the limits of words, a move may be stopped instead.
theorem moves_go_to_edge (hk : c.raster.Inside c.cursor.x c.cursor.y) (d : Direction) (n : Nat) :
    (c.width + 20 ≤ 2 ^ 31 → c.height + 20 ≤ 2 ^ 31 → ∃ c' os, c.moves d n = .ok (c', os)) ∧
    ∀ c' os, c.moves d n = .ok (c', os) →
      let m := min n ((c.distance d + 6) / 7)
      c'.cursor = { c.cursor with
        x := nearest c.width (c.cursor.x + d.dx * (7 * n))
        y := nearest c.height (c.cursor.y + d.dy * (7 * n)) } ∧
      os.map MoveOutcome.moved = .replicate m true ++ .replicate (n - m) false ∧
      (c.cursor.penDown = true → ∃ ns, c.strokesAt (c.stations d m) = .ok (c', ns) ∧
        os = ns.map (.mk true) ++ .replicate (n - m) ⟨false, 0⟩) ∧
      (c.cursor.penDown = false → c' = { c with cursor := c.onward d n } ∧ ∀ o ∈ os, o.painted = 0) ∧
      (c.distance d ≤ 7 * n → ∀ k c'' os', c'.moves d k = .ok (c'', os') →
        c'' = c' ∧ os' = .replicate k ⟨false, 0⟩) := by
  have h := isOn_of_inside hk
  refine ⟨fun hw hh => exists_moves h hw hh d n, fun c' os hm => ?_⟩
  intro m
  have ht := travels_of_moves h hm
  refine ⟨ht.cursor, ht.moved, ht.painted, fun hp => ?glided, fun hd k c'' os' hk => ?further⟩
  case glided =>
    obtain ⟨hc, rfl⟩ := ht.glided hp
    refine ⟨hc, fun o ho => ?_⟩
    obtain ho | ho := List.mem_append.mp ho
    all_goals rw [List.eq_of_mem_replicate ho]
  case further =>
    have h' : c'.cursor.IsOn c'.raster.size := by
      rw [ht.size, ht.cursor]
      exact isOn_onward h d n
    have hz : c'.distance d = 0 := (distance_onward h ht.cursor ht.size).trans (Nat.sub_eq_zero_of_le hd)
    exact (travels_of_moves h' hk).eq_of_distance_eq_zero h' hz

-- A row of seventeen cells, with a pen at its right end.
def corridor : Canvas where
  raster := .filled 17 1 Rgb.black
  cursor := ⟨16, 0, true, .red, .pen⟩
  scale := 1.0
  screen := ⟨57, 41⟩
  colors := .empty colorLimit
  spray := .scripted (fun _ _ => true) 0

-- The third move is a short one, and the last two do nothing.
theorem moves_go_to_edge_of_corridor :
    corridor.raster.Inside corridor.cursor.x corridor.cursor.y ∧
    ∃ c' os, corridor.moves .left 5 = .ok (c', os) ∧ c'.cursor.x = 0 ∧
      os.map MoveOutcome.moved = [true, true, true, false, false] ∧
      (∃ ns, corridor.strokesAt (corridor.stations .left 3) = .ok (c', ns)) ∧
      ∀ k c'' os', c'.moves .left k = .ok (c'', os') → c'' = c' := by
  have hk : corridor.raster.Inside corridor.cursor.x corridor.cursor.y := by decide
  have ⟨hm, ht⟩ := moves_go_to_edge hk .left 5
  obtain ⟨c', os, hm⟩ := hm (by decide) (by decide)
  obtain ⟨hc, ho, hs, _, hf⟩ := ht c' os hm
  obtain ⟨ns, hs, _⟩ := hs rfl
  exact ⟨hk, c', os, hm, congrArg Cursor.x hc, ho, ⟨ns, hs⟩, fun k c'' os' h => (hf (by decide) k c'' os' h).left⟩

end Atelier.Canvas
