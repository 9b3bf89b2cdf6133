import Atelier.Json.Access
import Atelier.Proofs.Checked
import Atelier.Proofs.Json.Reading

/-!
What is written for a value has that value. The parts of a record are found under their names.
-/

namespace Atelier.Json

/-! Written values -/

@[simp]
theorem isWritten_ofString (s : String) : (ofString s).IsWritten :=
  .str s.toList

@[simp]
theorem isWritten_bool (b : Bool) : (bool b).IsWritten :=
  .bool b

@[simp]
theorem isWritten_ofInt (i : Int) : (ofInt i).IsWritten :=
  .num (Decimal.Literal.isWritten_ofInt i)

@[simp]
theorem isWritten_ofNat (n : Nat) : (ofNat n).IsWritten :=
  isWritten_ofInt n

@[simp]
theorem isWritten_ofFloat (x : Float) : (ofFloat x).IsWritten := by
  unfold ofFloat
  cases h : Decimal.shortest? numbers x
  case none => exact .null
  case some l => exact .num (Decimal.isWritten_of_shortest? (by decide) h)

theorem isWritten_ofOption {f : α → Json} (h : ∀ x, (f x).IsWritten) (o : Option α) :
    (ofOption f o).IsWritten := by
  cases o
  case none => exact .null
  case some x => exact h x

theorem isWritten_ofList {f : α → Json} (h : ∀ x, (f x).IsWritten) (xs : List α) :
    (ofList f xs).IsWritten := by
  refine .arr fun v hv => ?_
  obtain ⟨x, _, rfl⟩ := List.mem_map.mp hv
  exact h x

theorem isWritten_object {ms : List (String × Json)} (h : ∀ m ∈ ms, m.2.IsWritten) :
    (object ms).IsWritten := by
  refine .obj (fun p hp => ?_) fun p hp => ?_
  all_goals obtain ⟨m, hm, rfl⟩ := List.mem_map.mp hp
  case refine_1 => exact ⟨m.1.toList, rfl⟩
  case refine_2 => exact h m hm

/-! Values -/

@[simp]
theorem text?_ofString (s : String) : (ofString s).text? = some s := by
  simp [ofString, text?, Text.Quoted.decode?_encode]

@[simp]
theorem bool?_bool (b : Bool) : (bool b).bool? = some b :=
  rfl

theorem int?_ofInt {lo hi i : Int} (hl : lo ≤ i) (hh : i ≤ hi) : (ofInt i).int? lo hi = some i := by
  simp [ofInt, int?, Decimal.Literal.int?_ofInt, hl, hh]

theorem int32?_ofInt {i : Int} (h : Checked.Fits32 i) : (ofInt i).int32? = some i :=
  int?_ofInt h.left h.right

theorem nat32?_ofNat {n : Nat} (h : n < 4294967296) : (ofNat n).nat32? = some n := by
  simp [nat32?, ofNat, int?_ofInt (by omega : (0 : Int) ≤ n) (by omega : (n : Int) ≤ 4294967295)]

theorem nat64?_ofNat {n : Nat} (h : n < 18446744073709551616) : (ofNat n).nat64? = some n := by
  simp [nat64?, ofNat,
    int?_ofInt (by omega : (0 : Int) ≤ n) (by omega : (n : Int) ≤ 18446744073709551615)]

-- A number of a word, in decimal digits.
def IsWord (limit n : Nat) (v : Json) : Prop :=
  n < limit ∧ v = ofNat n

theorem nat32?_of_isWord {n : Nat} {v : Json} (h : IsWord 4294967296 n v) : v.nat32? = some n :=
  h.right ▸ nat32?_ofNat h.left

theorem nat64?_of_isWord {n : Nat} {v : Json} (h : IsWord 18446744073709551616 n v) :
    v.nat64? = some n :=
  h.right ▸ nat64?_ofNat h.left

theorem choice?_of_text? {ofName? : String → Option α} {v : Json} {s : String} {a : α}
    (hv : v.text? = some s) (h : ofName? s = some a) : choice? ofName? v = some a := by
  cases v
  case str cs => rw [choice?, show (str cs).name? _ = some s from hv, Option.bind_some, h]
  all_goals contradiction

theorem choice?_ofString {ofName? : String → Option α} {s : String} {a : α}
    (h : ofName? s = some a) : choice? ofName? (ofString s) = some a :=
  choice?_of_text? (text?_ofString s) h

theorem heldChoice?_ofString {ofName? : String → Option α} {s : String} {a : α}
    (h : ofName? s = some a) : heldChoice? ofName? (ofString s) = some a := by
  rw [heldChoice?, show (ofString s).name? _ = some s from text?_ofString s, Option.bind_some, h]

theorem isHeld_ofString (depth : Nat) (s : String) : (ofString s).isHeld depth = true := by
  simp [ofString, isHeld, Text.Quoted.decode?_encode]

-- What stands for a value must differ from what stands for none.
theorem option?_ofOption {f : Json → Option α} {g : α → Json} {o : Option α}
    (hn : ∀ x ∈ o, g x ≠ null) (h : ∀ x ∈ o, f (g x) = some x) :
    option? f (ofOption g o) = some o := by
  cases o
  case none => rfl
  case some x =>
    have hx := h x rfl
    simp only [ofOption, Option.map_some, Option.getD_some]
    rw [option?.eq_2 _ _ (hn x rfl), hx, Option.map_some]

theorem list?_ofList {f : Json → Option α} {g : α → Json} {xs : List α}
    (h : ∀ x ∈ xs, f (g x) = some x) : list? f (ofList g xs) = some xs :=
  Checked.mapM_map_eq_pure h

theorem read_ofList {f : Json → Option α} {g : α → Json} {xs : List α}
    (hw : ∀ x, (g x).IsWritten) (h : ∀ x ∈ xs, f (g x) = some x) :
    (read (ofList g xs).pretty).bind (list? f) = some xs := by
  rw [read_pretty (isWritten_ofList hw xs), Option.bind_some, list?_ofList h]

/-! Records -/

namespace Record

-- The record that finds each member under its name.
def ofList (ms : List (String × Json)) : Record :=
  ⟨(ms.lookup ·)⟩

variable {ms : List (String × Json)} {k : String} {v : Json}

theorem lookup_of_mem (hn : (ms.map (·.1)).Nodup) (hm : (k, v) ∈ ms) : ms.lookup k = some v := by
  induction ms
  case nil => contradiction
  case cons m ms ih =>
    simp only [List.map_cons, List.nodup_cons] at hn
    rw [List.lookup_cons]
    cases hm
    case head => simp
    case tail hm =>
      have hk : (k == m.1) = false :=
        beq_eq_false_iff_ne.mpr fun h => hn.left (h ▸ List.mem_map_of_mem hm)
      rw [hk, ih hn.right hm]

theorem lookup_eq_head?_filter (ms : List (String × Json)) (k : String) :
    ms.lookup k = (ms.filter (·.1 == k)).head?.map (·.2) := by
  induction ms
  case nil => rfl
  case cons m ms ih =>
    rw [List.lookup_cons, List.filter_cons, BEq.comm]
    cases m.1 == k
    case false => simpa using ih
    case true => rfl

-- A field that is read as it should be is passed on.
theorem required_bind (hn : (ms.map (·.1)).Nodup) (hm : (k, v) ∈ ms) {f : Json → Option α}
    {g : α → Option β} {a : α} {b : β} (hf : f v = some a) (hg : g a = some b) :
    (ofList ms).required k f >>= g = some b := by
  simp only [required, ofList, lookup_of_mem hn hm, Option.bind_some, hf]
  exact hg

theorem withDefault_bind (hn : (ms.map (·.1)).Nodup) (hm : (k, v) ∈ ms) {f : Json → Option α}
    {g : α → Option β} {a d : α} {b : β} (hf : f v = some a) (hg : g a = some b) :
    (ofList ms).withDefault k f d >>= g = some b := by
  simp only [withDefault, ofList, lookup_of_mem hn hm, hf]
  exact hg

theorem ofMembers?_of_countP {names : List String} (h : ∀ n ∈ names, ms.countP (·.1 == n) ≤ 1) :
    ofMembers? names ms = some (ofList ms) := by
  rw [ofMembers?, if_pos (by simpa using h), ofList]

theorem countP_le_of_nodup (h : (ms.map (·.1)).Nodup) (name : String) : ms.countP (·.1 == name) ≤ 1 := by
  have := List.nodup_iff_count.mp h name
  rwa [List.count, List.countP_map] at this

theorem ofMembers?_of_nodup (h : (ms.map (·.1)).Nodup) (names : List String) :
    ofMembers? names ms = some (ofList ms) :=
  ofMembers?_of_countP fun n _ => countP_le_of_nodup h n

end Record

theorem members?_object (ms : List (String × Json)) : (object ms).members? = some ms := by
  simp only [members?, object]
  exact Checked.mapM_map_eq_pure fun m _ => by simp [Text.Quoted.decode?_encode]

theorem exists_obj_of_members? {v : Json} {ms : List (String × Json)} (h : v.members? = some ms) :
    ∃ raw, v = obj raw := by
  cases v
  case obj raw => exact ⟨raw, rfl⟩
  all_goals contradiction

theorem record?_of_members? {v : Json} {ms : List (String × Json)} {names : List String}
    (hm : v.members? = some ms) (h : ∀ n ∈ names, ms.countP (·.1 == n) ≤ 1) :
    v.record? names = some (.ofList ms) := by
  obtain ⟨raw, rfl⟩ := exists_obj_of_members? hm
  rw [record?, hm, Option.bind_some, Record.ofMembers?_of_countP h]
  exact fun _ => nofun

theorem record?_object {ms : List (String × Json)} (h : (ms.map (·.1)).Nodup)
    (names : List String) : (object ms).record? names = some (.ofList ms) :=
  record?_of_members? (members?_object ms) fun n _ => Record.countP_le_of_nodup h n

/-! Fields that may be left out -/

-- What the members of an object state under a name: nothing, or one value, however they are ordered.
inductive States (ms : List (String × Json)) (name : String) (P : α → Json → Prop) : Option α → Prop
  | nothing (h : ms.filter (·.1 == name) = []) : States ms name P none
  | value {a : α} {v : Json} (h : ms.filter (·.1 == name) = [(name, v)]) (hv : P a v) :
    States ms name P (some a)

namespace States

variable {ms : List (String × Json)} {k : String} {P : α → Json → Prop} {o : Option α}

theorem countP_le (h : States ms k P o) : ms.countP (·.1 == k) ≤ 1 := by
  rw [List.countP_eq_length_filter]
  cases h
  case nothing h => simp [h]
  case value h _ => simp [h]

theorem of_notMem (h : k ∉ ms.map (·.1)) : States ms k P none := by
  refine .nothing (List.filter_eq_nil_iff.mpr fun m hm hk => ?_)
  exact h (List.mem_map.mpr ⟨m, hm, eq_of_beq hk⟩)

theorem of_nodup (hn : (ms.map (·.1)).Nodup) {v : Json} (hm : (k, v) ∈ ms) {a : α} (hv : P a v) :
    States ms k P (some a) := by
  have hl := Record.countP_le_of_nodup hn k
  have hf : (k, v) ∈ ms.filter (·.1 == k) := List.mem_filter.mpr ⟨hm, beq_self_eq_true k⟩
  rw [List.countP_eq_length_filter] at hl
  obtain ⟨m, he⟩ := List.length_eq_one_iff.mp (Nat.le_antisymm hl (List.length_pos_of_mem hf))
  rw [he, List.mem_singleton] at hf
  exact .value (hf ▸ he) hv

theorem map (h : States ms k P o) {g : α → β} {Q : β → Json → Prop} (hq : ∀ a v, P a v → Q (g a) v) :
    States ms k Q (o.map g) := by
  cases h
  case nothing h => exact .nothing h
  case value v h hv => exact .value h (hq _ v hv)

theorem withDefault_bind (h : States ms k P o) {f : Json → Option α} {g : α → Option β} {d : α} {b : β}
    (hf : ∀ a v, P a v → f v = some a) (hg : g (o.getD d) = some b) :
    (Record.ofList ms).withDefault k f d >>= g = some b := by
  simp only [Record.withDefault, Record.ofList, Record.lookup_eq_head?_filter]
  cases h
  case nothing h => simpa [h] using hg
  case value v h hv =>
    have hv := hf _ v hv
    simpa [h, hv] using hg

end States

end Atelier.Json
