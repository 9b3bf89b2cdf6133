import Atelier.Path
import Atelier.Raster

/-!
Folders of files. A folder holds texts, pictures and files that are neither, under their paths. A file
can only be written into a folder that is there.
-/

namespace Atelier

inductive File
  | text (s : String)
  | picture (r : Raster)
  | other (bytes : List UInt8)
deriving DecidableEq

inductive Entry
  | file (f : File)
  | folder
deriving DecidableEq

structure Folder where
  entries : List (Path × Entry)
deriving DecidableEq

namespace Folder

def empty : Folder := ⟨[]⟩

/-- What is at a path. The empty path is the outermost folder itself. -/
def get? (f : Folder) (p : Path) : Option Entry :=
  if p.isEmpty then some .folder else f.entries.lookup p

def isFolder (f : Folder) (p : Path) : Bool :=
  f.get? p = some .folder

def put (f : Folder) (p : Path) (e : Entry) : Folder :=
  ⟨(p, e) :: f.entries.filter (·.1 != p)⟩

/-- The path and all paths before it, from the outermost one on. -/
def ways (p : Path) : List Path :=
  (List.range p.length).map fun n => p.take (n + 1)

/-- Makes a folder and those around it, unless a file stands in the way. -/
def makeFolders? (f : Folder) (p : Path) : Option Folder :=
  (ways p).foldlM (fun f p =>
    match f.get? p with
    | some .folder => some f
    | some (.file _) => none
    | none => some (f.put p .folder)) f

/-- Writes a file, unless its folder is missing or another folder has its path. -/
def write? (f : Folder) (p : Path) (file : File) : Option Folder :=
  if f.isFolder p || !f.isFolder p.dropLast then none else some (f.put p (.file file))

def text? (f : Folder) (p : Path) : Option String :=
  match f.get? p with
  | some (.file (.text s)) => some s
  | _ => none

def picture? (f : Folder) (p : Path) : Option Raster :=
  match f.get? p with
  | some (.file (.picture r)) => some r
  | _ => none

/-- All files, in the order of their paths. -/
def files (f : Folder) : List (String × File) :=
  let all := f.entries.filterMap fun (p, e) =>
    match e with
    | .file file => some (Path.text p, file)
    | .folder => none
  all.mergeSort fun a b => a.1 ≤ b.1

theorem lookup_filter_ne {p q : Path} (h : q ≠ p) (es : List (Path × Entry)) :
    (es.filter (·.1 != p)).lookup q = es.lookup q := by
  induction es with
  | nil => rfl
  | cons e es ih =>
    obtain ⟨r, e⟩ := e
    by_cases hr : r = p
    · subst hr
      have hb : (q == r) = false := by simpa using h
      simpa [List.lookup_cons, hb] using ih
    · simp only [List.filter_cons, bne_iff_ne, ne_eq, hr, not_false_eq_true, if_true,
        List.lookup_cons, ih]

theorem get?_put (f : Folder) {p : Path} (h : p ≠ []) (e : Entry) (q : Path) :
    (f.put p e).get? q = if q = p then some e else f.get? q := by
  by_cases hq : q = []
  · subst hq
    rw [if_neg (Ne.symm h)]
    rfl
  · by_cases hp : q = p
    · subst hp
      simp [get?, put, hq]
    · have hb : (q == p) = false := by simpa using hp
      simp [get?, put, hq, hp, List.lookup_cons, hb, lookup_filter_ne hp]

end Folder

end Atelier
