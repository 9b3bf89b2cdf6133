import Atelier.Document
import Atelier.Proofs.Instant.Reading
import Atelier.Proofs.Json.Values

/-!
The values of documents, and the entries of the two histories, read back as they are written. Numbers
must fit their words, and times must be in the calendar.
-/

namespace Atelier

open Json

/-! Alternatives -/

@[simp]
theorem Color.isWritten_toJson (c : Color) : c.toJson.IsWritten :=
  isWritten_ofString _

@[simp]
theorem Color.ofJson?_toJson (c : Color) : ofJson? c.toJson = some c :=
  choice?_ofString (ofName?_name c)

@[simp]
theorem Tool.isWritten_toJson (t : Tool) : t.toJson.IsWritten :=
  isWritten_ofString _

@[simp]
theorem Tool.ofJson?_toJson (t : Tool) : ofJson? t.toJson = some t :=
  choice?_ofString (ofName?_name t)

@[simp]
theorem Pace.isWritten_toJson (p : Pace) : p.toJson.IsWritten :=
  isWritten_ofString _

@[simp]
theorem Pace.ofJson?_toJson (p : Pace) : ofJson? p.toJson = some p :=
  choice?_ofString (ofName?_name p)

@[simp]
theorem SleepPhase.isWritten_toJson (p : SleepPhase) : p.toJson.IsWritten :=
  isWritten_ofString _

@[simp]
theorem SleepPhase.ofJson?_toJson (p : SleepPhase) : ofJson? p.toJson = some p :=
  choice?_ofString (ofName?_name p)

namespace Instant

@[simp]
theorem isWritten_toJson (t : Instant) : t.toJson.IsWritten :=
  isWritten_ofString _

theorem ofJson?_toJson {t : Instant} (h : t.IsStorable) : ofJson? t.toJson = some t := by
  rw [ofJson?, toJson, text?_ofString, Option.bind_some, read_text h]

end Instant

/-! Histories -/

namespace CodeContext

structure IsStorable (c : CodeContext) : Prop where
  x : Checked.Fits32 c.x
  y : Checked.Fits32 c.y
  pixelsDrawn : c.pixelsDrawn < 18446744073709551616

@[simp]
theorem isWritten_toJson (c : CodeContext) : c.toJson.IsWritten :=
  isWritten_object (by simp)

theorem ofJson?_toJson {c : CodeContext} (h : c.IsStorable) : ofJson? c.toJson = some c := by
  rw [ofJson?, toJson, record?_object (by simp), Option.bind_eq_bind, Option.bind_some]
  refine Record.required_bind (by simp) (by simp) (text?_ofString c.emotion) ?_
  refine Record.required_bind (by simp) (by simp) (int32?_ofInt h.x) ?_
  refine Record.required_bind (by simp) (by simp) (int32?_ofInt h.y) ?_
  refine Record.required_bind (by simp) (by simp) (Color.ofJson?_toJson c.color) ?_
  refine Record.required_bind (by simp) (by simp) (bool?_bool c.penDown) ?_
  refine Record.required_bind (by simp) (by simp) (nat64?_ofNat h.pixelsDrawn) ?_
  exact Record.required_bind (by simp) (by simp) (Tool.ofJson?_toJson c.tool) rfl

end CodeContext

namespace CodeMemory

structure IsStorable (m : CodeMemory) : Prop where
  context : m.context.IsStorable
  timestamp : m.timestamp.IsStorable

@[simp]
theorem isWritten_toJson (m : CodeMemory) : m.toJson.IsWritten :=
  isWritten_object (by simp)

theorem ofJson?_toJson {m : CodeMemory} (h : m.IsStorable) : ofJson? m.toJson = some m := by
  rw [ofJson?, toJson, record?_object (by simp), Option.bind_eq_bind, Option.bind_some]
  refine Record.required_bind (by simp) (by simp) (text?_ofString m.code) ?_
  refine Record.required_bind (by simp) (by simp) (CodeContext.ofJson?_toJson h.context) ?_
  exact Record.required_bind (by simp) (by simp) (Instant.ofJson?_toJson h.timestamp) rfl

end CodeMemory

namespace Dream

structure IsStorable (d : Dream) : Prop where
  timestamp : d.timestamp.IsStorable

@[simp]
theorem isWritten_toJson (d : Dream) : d.toJson.IsWritten :=
  isWritten_object (by simp)

theorem ofJson?_toJson {d : Dream} (h : d.IsStorable) : ofJson? d.toJson = some d := by
  rw [ofJson?, toJson, record?_object (by simp), Option.bind_eq_bind, Option.bind_some]
  refine Record.required_bind (by simp) (by simp) (text?_ofString d.content) ?_
  refine Record.required_bind (by simp) (by simp) (SleepPhase.ofJson?_toJson d.phase) ?_
  refine Record.required_bind (by simp) (by simp) (Instant.ofJson?_toJson h.timestamp) ?_
  exact Record.withDefault_bind (by simp) (by simp) (text?_ofString d.overview) rfl

end Dream

end Atelier
