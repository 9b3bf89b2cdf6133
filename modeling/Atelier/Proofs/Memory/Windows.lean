import Atelier.Proofs.History
import Atelier.Proofs.Store.Loading

/-!
Memories as windows: a history holds the last of all entries that it was ever given, it does not matter
that the store cuts its codes before a history does, and repetition is seen in the last three codes.
-/

namespace Atelier

namespace Memory

theorem ofList_loadCodes {f : Folder} {cs : List CodeMemory}
    (h : (Store.document? f Store.codesPath).bind (Json.list? CodeMemory.ofJson?) = some cs) :
    History.ofList codeLimit (Store.loadCodes f) = .ofList codeLimit cs := by
  have hl : Store.loadCodes f = lastOf codeLimit cs := by rw [Store.loadCodes, h, Option.getD_some]
  have hw := lastOf_lastOf_append codeLimit cs []
  simp only [List.append_nil] at hw
  rw [hl, History.ofList_eq, History.ofList_eq, hw]

theorem isRepeating_iff (m : Memory) :
    m.isRepeating = true ↔ ∃ before x y z,
      m.codes.items = before ++ [x, y, z] ∧ x.code = y.code ∧ y.code = z.code := by
  constructor
  case mp =>
    intro h
    obtain ⟨before, hb⟩ := m.codes.recent_suffix 3
    match hr : m.codes.recent 3 with
    | [x, y, z] =>
      refine ⟨before, x, y, z, by rw [← hb, hr], ?_⟩
      simpa [isRepeating, recentCodes, hr] using h
    | [] | [_] | [_, _] | _ :: _ :: _ :: _ :: _ => simp [isRepeating, recentCodes, hr] at h
  case mpr =>
    intro ⟨before, x, y, z, hi, hxy, hyz⟩
    have hr : m.codes.recent 3 = [x, y, z] := by
      rw [History.recent, hi]
      exact lastOf_append_of_length_eq rfl
    simp [isRepeating, recentCodes, hr, hxy, hyz]

theorem histories_are_windows :
    (∀ (α : Type) (limit : Nat) (h : History α) (as : List α), History.Grown limit h as →
      h.items <:+ as ∧ h.length = min limit as.length ∧
      ∀ k, h.recent k <:+ h.items ∧ (h.recent k).length = min k h.length) ∧
    (∀ (f : Folder) (cs : List CodeMemory),
      (Store.document? f Store.codesPath).bind (Json.list? CodeMemory.ofJson?) = some cs →
      History.ofList codeLimit (Store.loadCodes f) = .ofList codeLimit cs) ∧
    ∀ m : Memory, m.isRepeating = true ↔ ∃ before x y z,
      m.codes.items = before ++ [x, y, z] ∧ x.code = y.code ∧ y.code = z.code := by
  refine ⟨fun α limit h as g => ?_, fun _ _ => ofList_loadCodes, isRepeating_iff⟩
  rw [g.eq_window]
  exact ⟨lastOf_suffix limit as, length_lastOf limit as, fun k => ⟨History.recent_suffix _ k,
    History.length_recent _ k⟩⟩

def counted : History Nat :=
  ((History.ofList 3 [1, 2]).push 3).extend [4, 5]

-- Codes that are more than a history holds.
def manyCodes : List CodeMemory :=
  List.replicate 1005 oddMemory

def storing (codes : List CodeMemory) : Folder :=
  Folder.empty.put Store.codesPath (.file (.text (Json.ofList CodeMemory.toJson codes).pretty))

theorem document?_storing {codes : List CodeMemory} (h : ∀ c ∈ codes, c.IsStorable) :
    (Store.document? (storing codes) Store.codesPath).bind (Json.list? CodeMemory.ofJson?) =
      some codes := by
  have ht : (storing codes).text? Store.codesPath =
      some (Json.ofList CodeMemory.toJson codes).pretty := by
    rw [Folder.text?, storing, Folder.get?_put _ (by decide), if_pos rfl]
  rw [Store.document?, ht, Option.bind_some, CodeMemory.read_document h]

theorem histories_are_windows_of_many_codes :
    History.Grown 3 counted [1, 2, 3, 4, 5] ∧
    counted.items <:+ [1, 2, 3, 4, 5] ∧ counted.length = 3 ∧ (counted.recent 2).length = 2 ∧
    (Store.document? (storing manyCodes) Store.codesPath).bind (Json.list? CodeMemory.ofJson?) =
      some manyCodes ∧
    History.ofList codeLimit (Store.loadCodes (storing manyCodes)) = .ofList codeLimit manyCodes := by
  have ⟨hwindow, hstore, _⟩ := histories_are_windows
  have hg : History.Grown 3 counted [1, 2, 3, 4, 5] := ((History.Grown.ofList [1, 2]).push 3).extend [4, 5]
  have ⟨hi, hl, hr⟩ := hwindow Nat 3 counted _ hg
  have hc : ∀ c ∈ manyCodes, c.IsStorable := fun c hc =>
    List.eq_of_mem_replicate hc ▸ ⟨⟨by decide, by decide, by decide⟩, isStorable_inserted⟩
  have hd := document?_storing hc
  exact ⟨hg, hi, hl, (hr 2).right.trans (hl ▸ rfl), hd, hstore _ _ hd⟩

end Memory

end Atelier
