import Atelier.Proofs.Canvas.Sound

/-!
Whatever is done to a canvas, it stays in order, and no step is stopped, as long as no side becomes too
long.
-/

namespace Atelier.Canvas

-- All that can be done to a canvas.
inductive Edit
  | move (d : Direction)
  | setPen (down : Bool)
  | setColor (k : Color)
  | setTool (t : Tool)
  | center
  | clear
  | fill
  | stroke
  | zoom (z : Zoom)
  | resize (size : Size)
  | rescale (screen : Size) (scale : Float)
  | restore (stored : Option Raster) (k : Cursor) (colors : List Color)

def Edit.apply (c : Canvas) : Edit → Checked Canvas
  | move d => do
    let (c, _) ← c.move d
    return c
  | setPen down => return c.setPen down
  | setColor k => return c.setColor k
  | setTool t => return c.setTool t
  | center => return c.center
  | clear => return c.clear
  | fill => return c.fill
  | stroke => do
    let (c, _) ← c.stroke
    return c
  | zoom z => do
    let (c, _) ← c.zoom z
    return c
  | resize size => c.resize size
  | rescale screen scale => c.rescale screen scale
  | restore stored k colors => c.restore stored k colors

def edited (c : Canvas) (es : List Edit) : Checked Canvas :=
  es.foldlM Edit.apply c

-- The sizes that an edit brings with it.
inductive Edit.Brings (c : Canvas) : Edit → Size → Prop
  | zoom {z size} : ¬c.IsAtEnd z → dims c.screen (c.nextScale z) = .ok size → Brings c (.zoom z) size
  | resize {size} : Brings c (.resize size) size
  | rescale {screen scale size} :
    dims screen (clampScale scale) = .ok size → Brings c (.rescale screen scale) size
  | restore {r k colors} : Brings c (.restore (some r) k colors) r.size

-- Apart from its sizes, only the words of a screen and of a cursor matter of what is given to an edit.
def Edit.IsGiven : Edit → Prop
  | rescale screen _ => screen.IsWord
  | restore _ k _ => k.IsClose
  | _ => True

-- No side that occurs on the way is too long.
def StaysShort (c : Canvas) : List Edit → Prop
  | [] => True
  | e :: es => (∀ size, e.Brings c size → size.IsShort) ∧ ∀ c', e.apply c = .ok c' → c'.StaysShort es

-- Where a canvas comes from.
inductive Origin
  | size (size : Size)
  | screen (screen : Size) (scale : Float)

namespace Origin

def build (spray : Spray) : Origin → Checked Canvas
  | size s => ofSize s spray
  | screen s scale => ofScreen s scale spray

inductive Brings : Origin → Size → Prop
  | size {size} : Brings (.size size) size
  | screen {screen scale size} :
    dims screen (clampScale scale) = .ok size → Brings (.screen screen scale) size

def IsGiven : Origin → Prop
  | size _ => True
  | screen s _ => s.IsWord

end Origin

variable {c c' : Canvas} {e : Edit} {es : List Edit}

theorem edited_cons_eq_ok_iff :
    c.edited (e :: es) = .ok c' ↔ ∃ c₁, e.apply c = .ok c₁ ∧ c₁.edited es = .ok c' := by
  rw [edited, List.foldlM_cons, Checked.bind_eq_ok_iff]
  rfl

-- What each of some edits keeps, all of them keep.
theorem edited_induction {p : Canvas → Prop} (hp : ∀ {c c' e}, e ∈ es → e.apply c = .ok c' → p c → p c')
    (h : c.edited es = .ok c') (hc : p c) : p c' := by
  induction es generalizing c
  case nil =>
    cases h
    exact hc
  case cons e es ih =>
    obtain ⟨c₁, he, h⟩ := edited_cons_eq_ok_iff.mp h
    exact ih (fun hm => hp (List.mem_cons_of_mem e hm)) h (hp List.mem_cons_self he hc)

theorem Sound.apply (h : c.Sound) {e : Edit} (hg : e.IsGiven)
    (hs : ∀ size, e.Brings c size → size.IsShort) : ∃ c', e.apply c = .ok c' ∧ c'.Sound := by
  cases e
  case move d =>
    have ⟨c', _, hm, hc⟩ := h.move d
    exact ⟨c', by rw [Edit.apply, hm]; rfl, hc⟩
  case setPen down => exact ⟨_, rfl, h.setPen down⟩
  case setColor k => exact ⟨_, rfl, h.setColor k⟩
  case setTool t => exact ⟨_, rfl, h.setTool t⟩
  case center => exact ⟨_, rfl, h.center⟩
  case clear => exact ⟨_, rfl, h.clear⟩
  case fill => exact ⟨_, rfl, h.fill⟩
  case stroke =>
    have ⟨c', _, hk, hc⟩ := h.stroke
    exact ⟨c', by rw [Edit.apply, hk]; rfl, hc⟩
  case zoom z =>
    have ⟨c', _, hz, hc⟩ := h.zoom fun he size hd => hs size (.zoom he hd)
    exact ⟨c', by rw [Edit.apply, hz]; rfl, hc⟩
  case resize size => exact h.resize (hs size .resize)
  case rescale screen scale => exact h.rescale hg fun size hd => hs size (.rescale hd)
  case restore stored k colors =>
    refine h.restore hg (fun r hr => ?_) colors
    cases hr
    exact hs r.size .restore

theorem Sound.edited (h : c.Sound) {es : List Edit} (hg : ∀ e ∈ es, e.IsGiven) (hs : c.StaysShort es) :
    ∃ c', c.edited es = .ok c' ∧ c'.Sound := by
  induction es generalizing c
  case nil => exact ⟨c, rfl, h⟩
  case cons e es ih =>
    simp only [List.mem_cons, forall_eq_or_imp] at hg
    have ⟨c', he, hc⟩ := h.apply hg.left hs.left
    have ⟨c'', hes, hc'⟩ := ih hc hg.right (hs.right c' he)
    exact ⟨c'', edited_cons_eq_ok_iff.mpr ⟨c', he, hes⟩, hc'⟩

theorem exists_build (o : Origin) (hg : o.IsGiven) (hs : ∀ size, o.Brings size → size.IsShort)
    (spray : Spray) : ∃ c, o.build spray = .ok c ∧ c.Sound := by
  cases o
  case size size => exact exists_ofSize (hs size .size) spray
  case screen screen scale => exact exists_ofScreen hg (fun size hd => hs size (.screen hd)) spray

-- Each canvas that is built and then edited in any way is in order, and so no cell is looked for outside
-- of its cells. Nothing on the way is stopped.
theorem sound_of_edits (o : Origin) (spray : Spray) {es : List Edit} (ho : o.IsGiven)
    (hg : ∀ e ∈ es, e.IsGiven) (hs : ∀ size, o.Brings size → size.IsShort)
    (hes : ∀ c, o.build spray = .ok c → c.StaysShort es) :
    ∃ c, (o.build spray >>= fun c => c.edited es) = .ok c ∧ c.Sound ∧
      ∀ x y i, c.raster.index? x y = some i → i < c.raster.cells.size := by
  have ⟨c, hb, hc⟩ := exists_build o ho hs spray
  have ⟨c', he, hc'⟩ := hc.edited hg (hes c hb)
  refine ⟨c', ?_, hc', fun _ _ _ hi => hc'.index_lt hi⟩
  rw [hb]
  exact he

theorem isShort_of_dims {screen size : Size} {scale : Float} (hs : screen.IsShort)
    (hd : dims screen (clampScale scale) = .ok size) : size.IsShort := by
  have ⟨size', hd', ⟨_, hw'⟩, _, hh'⟩ := dims_eq_ok hs.isWord scale
  cases hd.symm.trans hd'
  exact ⟨Nat.le_trans hw' hs.max_one.left, Nat.le_trans hh' hs.max_one.right⟩

-- A canvas of one cell for a start, a zoom, the longest sides, a scale and a history beyond their limits,
-- and a cursor that is as far away as it may be.
def roughEdits : List Edit :=
  [.zoom .smaller, .move .left, .resize ⟨2 ^ 30, 0⟩, .stroke, .rescale ⟨2 ^ 30, 3⟩ 0.5,
    .restore (some (.filled 3 1 Rgb.black)) ⟨2 ^ 30, -2 ^ 30, true, .red, .spray⟩ (.replicate 30 .blue)]

theorem sound_of_roughEdits :
    ∃ c, ((Origin.size ⟨1, 0⟩).build (.seeded (.ofSeed 0)) >>= fun c => c.edited roughEdits) = .ok c ∧
      c.Sound ∧ ∀ x y i, c.raster.index? x y = some i → i < c.raster.cells.size := by
  apply sound_of_edits
  case ho => trivial
  case hg =>
    simp only [roughEdits, List.mem_cons, List.not_mem_nil, or_false, forall_eq_or_imp, forall_eq]
    exact ⟨trivial, trivial, trivial, trivial, (by decide : Size.IsWord _), (by decide : Cursor.IsClose _)⟩
  case hs =>
    intro size hb
    cases hb
    decide
  case hes =>
    intro c hb
    have hc : c.screen = ⟨41, 40⟩ := by
      cases hb
      rfl
    refine ⟨?zoom, fun _ _ => ⟨?move, fun _ _ => ⟨?resize, fun _ _ => ⟨?stroke, fun _ _ => ⟨?rescale,
      fun _ _ => ⟨?restore, fun _ _ => trivial⟩⟩⟩⟩⟩⟩
    all_goals
      intro size hb
      cases hb
    case zoom hd =>
      rw [hc, ← clampScale_nextScale] at hd
      exact isShort_of_dims (by decide) hd
    case resize => decide
    case rescale hd => exact isShort_of_dims (by decide) hd
    case restore => decide

end Atelier.Canvas
