import Atelier.Canvas.Description
import Atelier.Frame
import Atelier.Listener
import Atelier.LogFilter
import Atelier.Session.Tick
import Atelier.Proofs.Canvas.Colors
import Atelier.Proofs.Canvas.Moves
import Atelier.Proofs.Canvas.Recentring
import Atelier.Proofs.Canvas.Stroke
import Atelier.Proofs.Checked
import Atelier.Proofs.Cycle.Clearing
import Atelier.Proofs.Cycle.Joining
import Atelier.Proofs.Cycle.Observing
import Atelier.Proofs.Cycle.Running
import Atelier.Proofs.Cycle.Tallying
import Atelier.Proofs.Cycle.Reordering
import Atelier.Proofs.Decimal.Padded
import Atelier.Proofs.Decimal.Reading
import Atelier.Proofs.Document
import Atelier.Proofs.Document.State
import Atelier.Proofs.Footprint.Shapes
import Atelier.Proofs.Frame.Centred
import Atelier.Proofs.Instant.Calendar
import Atelier.Proofs.Instant.Reading
import Atelier.Proofs.Instant.Stamp
import Atelier.Proofs.Json.Reading
import Atelier.Proofs.Json.Values
import Atelier.Proofs.Memory.Retaining
import Atelier.Proofs.Memory.Windows
import Atelier.Proofs.Mood
import Atelier.Proofs.Overview
import Atelier.Proofs.Random.Shuffle
import Atelier.Proofs.Scan.Cut
import Atelier.Proofs.Scan.Rendering
import Atelier.Proofs.Scan.Summary
import Atelier.Proofs.Schedule.Discipline
import Atelier.Proofs.Schedule.CheckIns
import Atelier.Proofs.Schedule.Choosing
import Atelier.Proofs.Schedule.Moments
import Atelier.Proofs.Schedule.Polling
import Atelier.Proofs.Schedule.Restart
import Atelier.Proofs.Schedule.Sleeping
import Atelier.Proofs.Session.Archiving
import Atelier.Proofs.Session.Breaks
import Atelier.Proofs.Session.Counting
import Atelier.Proofs.Session.Dreaming
import Atelier.Proofs.Session.Lasting
import Atelier.Proofs.Session.Loading
import Atelier.Proofs.Session.Modes
import Atelier.Proofs.Session.Opening
import Atelier.Proofs.Session.Pictures
import Atelier.Proofs.Session.Overruns
import Atelier.Proofs.Session.Refusals
import Atelier.Proofs.Session.Resuming
import Atelier.Proofs.Session.Turns
import Atelier.Proofs.Settings
import Atelier.Proofs.Settings.Routine
import Atelier.Proofs.Snapshot.Description
import Atelier.Proofs.Speed
import Atelier.Proofs.Store.Loading
import Atelier.Proofs.Text.Lower
import Atelier.Proofs.Text.Quoted
import Atelier.Proofs.View.Samples
import Atelier.Proofs.View.Window
import Atelier.Proofs.Zone
