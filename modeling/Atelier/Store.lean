import Atelier.Document.State
import Atelier.Folder
import Atelier.Json.Reader

/-!
What a session leaves in its data folder: the canvas as a picture, the state document and the two
histories. Writing stops at the first step that fails, and what was written before stays. Reading never
fails: what cannot be read counts as missing.
-/

namespace Atelier

/-- A step of writing that has failed, with the path in question. -/
inductive SaveError
  | stateFolder (p : Path)
  | pictureFolder (p : Path)
  | snapshotFolder (p : Path)
  | picture (p : Path)
  | document (p : Path)
  | sidecar (p : Path)
deriving DecidableEq

/-- The message of an error in a data folder of a given name. -/
def SaveError.message (data : String) (e : SaveError) : String :=
  let place := Path.under data
  match e with
  | stateFolder p    => "create canvas state folder " ++ place p
  | pictureFolder p  => "create image parent folder " ++ place p
  | snapshotFolder p => "create snapshot folder " ++ place p
  | picture p        => "write png " ++ place p
  | document p       => "write " ++ place p
  | sidecar p        => "write snapshot metadata " ++ place p

/-- Work on the data folder. An error leaves the folder as it is by then. -/
abbrev Saving := EStateM SaveError Folder

namespace Saving

/-- Makes a change to the folder, if it is possible. -/
def change (e : SaveError) (f : Folder → Option Folder) : Saving Unit := do
  match f (← get) with
  | some folder => set folder
  | none => throw e

def makeFolders (p : Path) (e : SaveError) : Saving Unit :=
  change e (·.makeFolders? p)

def writeText (p : Path) (e : SaveError) (s : String) : Saving Unit :=
  change e (·.write? p (.text s))

-- The file is made before the picture is put into it.
/-- Writes a picture. One without cells cannot be written and leaves an empty file. -/
def writePicture (p : Path) (r : Raster) : Saving Unit := do
  makeFolders p.dropLast (.pictureFolder p.dropLast)
  if r.width = 0 ∨ r.height = 0 then
    writeText p (.picture p) ""
    throw (.picture p)
  else
    change (.picture p) (·.write? p (.picture r))

end Saving

namespace Store

def folder : Path := ["canvas"]

def canvasPath : Path := folder ++ ["canvas.png"]
def statePath : Path := folder ++ ["canvas_state.json"]
def codesPath : Path := folder ++ ["canvas_code_history.json"]
def dreamsPath : Path := folder ++ ["dream_memories.json"]

def ensureFolder : Saving Unit :=
  Saving.makeFolders folder (.stateFolder folder)

def writeDocument (p : Path) (v : Json) : Saving Unit :=
  Saving.writeText p (.document p) v.pretty

def saveCanvas (r : Raster) : Saving Unit := do
  ensureFolder
  Saving.writePicture canvasPath r

def saveState (s : SavedState) : Saving Unit := do
  ensureFolder
  writeDocument statePath s.toJson

def saveMemories (dreams : List Dream) (codes : List CodeMemory) : Saving Unit := do
  ensureFolder
  writeDocument dreamsPath (.ofList Dream.toJson dreams)
  writeDocument codesPath (.ofList CodeMemory.toJson codes)

def document? (f : Folder) (p : Path) : Option Json :=
  (f.text? p).bind Json.read

def loadCanvas? (f : Folder) : Option Raster :=
  f.picture? canvasPath

def loadState? (f : Folder) : Option SavedState :=
  (document? f statePath).bind SavedState.ofJson?

/-- The latest codes of the stored history. -/
def loadCodes (f : Folder) : List CodeMemory :=
  let codes := (document? f codesPath).bind (Json.list? CodeMemory.ofJson?)
  lastOf Memory.codeLimit (codes.getD [])

def loadDreams (f : Folder) : List Dream :=
  ((document? f dreamsPath).bind (Json.list? Dream.ofJson?)).getD []

end Store

end Atelier
