import Atelier.Document.State
import Atelier.Proofs.Document

/-!
The state document reads back as it is written. The members of the schedule are told apart from the
document's own by their names.
-/

namespace Atelier

open Json

namespace Schedule.Snapshot

structure IsStorable (s : Snapshot) : Prop where
  modeStart : s.modeStart.IsStorable
  phaseStart : s.phaseStart.IsStorable
  lastCheckIn : s.lastCheckIn.IsStorable

theorem isHeld_of_mem_members {s : Snapshot} (depth : Nat) {m : String × Json} (h : m ∈ s.members) :
    m.2.isHeld depth = true := by
  revert m
  simp [members, Instant.toJson, SleepPhase.toJson, isHeld_ofString]

theorem nodup_members (s : Snapshot) : (s.members.map (·.1)).Nodup := by
  simp [members]

theorem ofRecord?_members {s : Snapshot} (h : s.IsStorable) {kind? : Json → Option ModeKind}
    {phase? : Json → Option SleepPhase} (hk : kind? (.ofString s.mode.name) = some s.mode)
    (hp : phase? s.phase.toJson = some s.phase) :
    ofRecord? kind? phase? (.ofList s.members) = some s := by
  have hn := nodup_members s
  refine Record.required_bind hn (by simp [members]) hk ?_
  refine Record.required_bind hn (by simp [members]) (Instant.ofJson?_toJson h.modeStart) ?_
  refine Record.required_bind hn (by simp [members]) hp ?_
  refine Record.required_bind hn (by simp [members]) (Instant.ofJson?_toJson h.phaseStart) ?_
  exact Record.required_bind hn (by simp [members]) (Instant.ofJson?_toJson h.lastCheckIn) rfl

theorem ofJson?_toJson {s : Snapshot} (h : s.IsStorable) : ofJson? s.toJson = some s := by
  rw [ofJson?, toJson, record?_object (nodup_members s), Option.bind_some]
  exact ofRecord?_members h (choice?_ofString (ModeKind.ofName?_name _)) (SleepPhase.ofJson?_toJson _)

end Schedule.Snapshot

namespace SavedState

structure IsStorable (s : SavedState) : Prop where
  x : Checked.Fits32 s.cursor.x
  y : Checked.Fits32 s.cursor.y
  steps : s.steps < 18446744073709551616
  width : s.size.width < 4294967296
  height : s.size.height < 4294967296
  scale : (Json.ofFloat s.scale).float? = some s.scale
  skips : s.skips < 18446744073709551616
  delay : s.delay < 18446744073709551616
  schedule : s.schedule.IsStorable
  timestamp : s.timestamp.IsStorable

-- The members in front of those of the schedule, and the one behind them.
def leading (s : SavedState) : List (String × Json) :=
  [("x", .ofInt s.cursor.x),
    ("y", .ofInt s.cursor.y),
    ("pen_down", .bool s.cursor.penDown),
    ("color", s.cursor.color.toJson),
    ("emotion", .ofString s.emotion),
    ("steps", .ofNat s.steps),
    ("canvas_width", .ofNat s.size.width),
    ("canvas_height", .ofNat s.size.height),
    ("scale_factor", .ofFloat s.scale),
    ("skip_count", .ofNat s.skips),
    ("speed", s.pace.toJson),
    ("delay_ms", .ofNat s.delay),
    ("tool", s.cursor.tool.toJson),
    ("color_history", .ofList Color.toJson s.colors),
    ("last_turn_color", .ofOption Color.toJson s.lastTurnColor)]

def members (s : SavedState) : List (String × Json) :=
  s.leading ++ s.schedule.members ++ [("timestamp", s.timestamp.toJson)]

theorem toJson_eq (s : SavedState) : s.toJson = .object s.members :=
  rfl

@[simp]
theorem isWritten_toJson (s : SavedState) : s.toJson.IsWritten := by
  rw [toJson_eq]
  apply isWritten_object
  simp [members, leading, Schedule.Snapshot.members, isWritten_ofList, isWritten_ofOption]

theorem nodup_members (s : SavedState) : (s.members.map (·.1)).Nodup := by
  simp [members, leading, Schedule.Snapshot.members]

theorem filter_members (s : SavedState) :
    s.members.filter (fun m => !fields.contains m.1) = s.schedule.members := by
  simp [members, leading, Schedule.Snapshot.members, fields]

theorem areHeld_others (s : SavedState) :
    s.schedule.members.any (fun m => !m.2.isHeld heldDepth) = false := by
  simp only [List.any_eq_false, Bool.not_eq_true', Bool.not_eq_false]
  exact fun m hm => Schedule.Snapshot.isHeld_of_mem_members heldDepth hm

theorem ofJson?_toJson {s : SavedState} (h : s.IsStorable) : ofJson? s.toJson = some s := by
  have hm := members?_object s.members
  have hn := nodup_members s
  have hr := Record.ofMembers?_of_nodup hn fields
  have ho := Record.ofMembers?_of_nodup (Schedule.Snapshot.nodup_members s.schedule)
    Schedule.Snapshot.fields
  have hs := Schedule.Snapshot.ofRecord?_members h.schedule
    (heldChoice?_ofString (ModeKind.ofName?_name _)) (heldChoice?_ofString (SleepPhase.ofName?_name _))
  have hcolors : list? Color.ofJson? (ofList Color.toJson s.colors) = some s.colors :=
    list?_ofList fun c _ => Color.ofJson?_toJson c
  have hlast : option? Color.ofJson? (ofOption Color.toJson s.lastTurnColor) = some s.lastTurnColor :=
    option?_ofOption (fun _ _ => nofun) fun c _ => Color.ofJson?_toJson c
  rw [toJson_eq]
  simp only [object] at hm ⊢
  rw [ofJson?, hm, Option.bind_eq_bind, Option.bind_some]
  dsimp only
  rw [filter_members, areHeld_others, if_neg Bool.false_ne_true, hr, ho]
  have field {k v} (hv : (k, v) ∈ s.leading) : (k, v) ∈ s.members := by simp [members, hv]
  refine Record.required_bind hn (field (by simp [leading])) (int32?_ofInt h.x) ?_
  refine Record.required_bind hn (field (by simp [leading])) (int32?_ofInt h.y) ?_
  refine Record.required_bind hn (field (by simp [leading])) (bool?_bool s.cursor.penDown) ?_
  refine Record.required_bind hn (field (by simp [leading])) (Color.ofJson?_toJson s.cursor.color) ?_
  refine Record.withDefault_bind hn (field (by simp [leading])) (Tool.ofJson?_toJson s.cursor.tool) ?_
  refine Record.required_bind hn (field (by simp [leading])) (text?_ofString s.emotion) ?_
  refine Record.required_bind hn (field (by simp [leading])) (nat64?_ofNat h.steps) ?_
  refine Record.required_bind hn (field (by simp [leading])) (nat32?_ofNat h.width) ?_
  refine Record.required_bind hn (field (by simp [leading])) (nat32?_ofNat h.height) ?_
  refine Record.required_bind hn (field (by simp [leading])) h.scale ?_
  refine Record.required_bind hn (field (by simp [leading])) (nat64?_ofNat h.skips) ?_
  refine Record.required_bind hn (field (by simp [leading])) (Pace.ofJson?_toJson s.pace) ?_
  refine Record.required_bind hn (field (by simp [leading])) (nat64?_ofNat h.delay) ?_
  refine Record.withDefault_bind hn (field (by simp [leading])) hcolors ?_
  refine Record.withDefault_bind hn (field (by simp [leading])) hlast ?_
  refine Option.bind_eq_some_iff.mpr ⟨_, hs, ?_⟩
  exact Record.required_bind hn (by simp [members]) (Instant.ofJson?_toJson h.timestamp) rfl

end SavedState

end Atelier
