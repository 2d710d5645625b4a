import ThermalGauge.FileTree.Basic

/-!
# Edits of a file tree

An edit makes the directories that its path needs.  It replaces what stands at the path
itself, except that a directory is kept where one is asked for.
-/

namespace ThermalGauge

namespace FileTree

/-- Takes away the entry at a location and all below it. -/
def removeAt (t : FileTree) (l : Location) : FileTree :=
  { t with entries := t.entries.filter fun e => !l.isSuffixOf e.1 }

def putAt (t : FileTree) (l : Location) (e : Entry) : FileTree :=
  { t with entries := (t.removeAt l).entries ++ [(l, e)] }

/-- The directory to which `names` lead from `l`, made as far as it is not there. -/
def ensureDirectory (t : FileTree) : Location → List Name → FileTree × Location
  | l, [] => (t, l)
  | l, name :: rest =>
    match t.walk linkLimit l [name] with
    | .ok (.directory found) => t.ensureDirectory found rest
    | _ => (t.putAt (name :: l) (.directory none)).ensureDirectory (name :: l) rest

/-- The names on the way to an entry, and its own. -/
def wayTo (p : Path) : List Name × Name :=
  let names := (Path.split p.octets).filter (· ≠ [])
  (names.dropLast, names.getLast?.getD [])

def write (t : FileTree) (p : Path) (e : Entry) : FileTree :=
  let (way, name) := wayTo p
  let (t, l) := t.ensureDirectory (t.startOf p) way
  t.putAt (name :: l) e

/-- The location of an entry, links on the way to it followed. -/
def locate? (t : FileTree) (p : Path) : Option Location :=
  let (way, name) := wayTo p
  match t.walk linkLimit (t.startOf p) way with
  | .ok (.directory l) => some (name :: l)
  | _ => none

def remove (t : FileTree) (p : Path) : FileTree :=
  match t.locate? p with
  | some l => t.removeAt l
  | none => t

/-- The location `l` as it is after what stands at `source` has gone to `target`. -/
def moved (source target l : Location) : Location :=
  if source.isSuffixOf l then l.take (l.length - source.length) ++ target else l

/-- Every location gives way to the one that corresponds. -/
def relocate (t : FileTree) (f : Location → Location) : FileTree :=
  ⟨t.entries.map fun e => (f e.1, e.2), f t.workingDirectory⟩

def rename (t : FileTree) (source target : Path) : FileTree :=
  match t.locate? source with
  | none => t
  | some origin =>
    let (way, name) := wayTo target
    let (t, l) := t.ensureDirectory (t.startOf target) way
    let destination := name :: l
    if destination = origin then t
    else (t.removeAt destination).relocate (moved origin destination)

end FileTree

inductive Edit where
  /-- A cooling device with the contents of its two state files, as far as given. -/
  | device (path : Path) (current max : Option Octets)
  | file (path : Path) (content : Octets)
  | directory (path : Path)
  | link (path target : Path)
  | remove (path : Path)
  | rename (source target : Path)
  deriving Repr

namespace FileTree

def currentStateName : Name := Utf8.encode "cur_state"

def maxStateName : Name := Utf8.encode "max_state"

def putFile (t : FileTree) (l : Location) (name : Name) : Option Octets → FileTree
  | none => t
  | some content => t.putAt (name :: l) (.file content)

def apply (t : FileTree) : Edit → FileTree
  | .device path current max =>
    let (t, l) := t.ensureDirectory (t.startOf path) (Path.split path.octets)
    (t.putFile l maxStateName max).putFile l currentStateName current
  | .file path content => t.write path (.file content)
  | .directory path => (t.ensureDirectory (t.startOf path) (Path.split path.octets)).1
  | .link path target => t.write path (.link target)
  | .remove path => t.remove path
  | .rename source target => t.rename source target

def ofEdits (edits : List Edit) : FileTree := edits.foldl apply empty

end FileTree

end ThermalGauge
