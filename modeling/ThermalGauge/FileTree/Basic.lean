import ThermalGauge.FileTree.Path
import ThermalGauge.FileTree.SystemError

/-!
# File trees

A tree holds what is known of the files of a host: directories, files with their contents, and
symbolic links.  The entry at a location is named by the names on the way to it, the innermost
first; the directory above all has no name.  Nothing is known to be where there is no entry.

A path is resolved name by name, from the directory above all if it is absolute and from the
working directory if not.  Strides go as far as no link stands in the way, and a walk puts a
bounded number of strides together, each but the last ending at a link.
-/

namespace ThermalGauge

abbrev Location := List Name

inductive Entry where
  /-- Names lead through any directory, but one with a refusal cannot be listed. -/
  | directory (refusal : Option SystemError)
  | file (content : Octets)
  | link (target : Path)
  deriving DecidableEq, Repr

structure FileTree where
  entries : List (Location × Entry)
  workingDirectory : Location
  deriving DecidableEq, Repr

namespace FileTree

/-- The working directory of a new tree. -/
def home : Location := [Utf8.encode "work"]

/-- Nothing but a working directory. -/
def empty : FileTree := ⟨[(home, .directory none)], home⟩

def entryAt? (t : FileTree) (l : Location) : Option Entry :=
  (t.entries.find? fun e => e.1 == l).map Prod.snd

/-- The names of the entries in a directory, in no particular order. -/
def names (t : FileTree) (l : Location) : List Name :=
  t.entries.filterMap fun e => match e.1 with
    | name :: up => if up = l then some name else none
    | [] => none

inductive Spot where
  | directory (location : Location)
  | file (content : Octets)
  deriving DecidableEq, Repr

/-- How far a walk gets before it meets a link in the directory `location`. -/
inductive Stride where
  | arrived (spot : Spot)
  | failed (error : SystemError)
  | link (location : Location) (target : Path) (rest : List Name)
  deriving DecidableEq, Repr

/-- No name is longer than this many octets. -/
def nameLimit : Nat := 255

/-- The directory above all is above itself. -/
def stride (t : FileTree) : Location → List Name → Stride
  | l, [] => .arrived (.directory l)
  | l, name :: rest =>
    if name = [] ∨ name = Path.dot then t.stride l rest
    else if name = Path.dotDot then t.stride l.tail rest
    else if nameLimit < name.length then .failed .nameTooLong
    else match t.entryAt? (name :: l) with
      | none => .failed .noSuchFile
      | some (.directory _) => t.stride (name :: l) rest
      | some (.file content) =>
        if rest = [] then .arrived (.file content) else .failed .notADirectory
      | some (.link target) => .link l target rest

/-- Where the walk along a path starts that is taken with respect to `l`. -/
def startFrom (l : Location) (p : Path) : Location := if p.isAbsolute then [] else l

/-- Follows at most `links` links. -/
def walk (t : FileTree) : Nat → Location → List Name → Except SystemError Spot
  | links, l, names =>
    match t.stride l names with
    | .arrived spot => .ok spot
    | .failed error => .error error
    | .link l target rest =>
      match links with
      | 0 => .error .tooManyLinks
      | links + 1 => t.walk links (startFrom l target) (Path.split target.octets ++ rest)

/-- No walk follows more links than this. -/
def linkLimit : Nat := 40

/-- No path is longer than this many octets. -/
def pathLimit : Nat := 4095

def startOf (t : FileTree) (p : Path) : Location := startFrom t.workingDirectory p

def resolve (t : FileTree) (p : Path) : Except SystemError Spot :=
  if p.octets = [] then .error .noSuchFile
  else if pathLimit < p.octets.length then .error .nameTooLong
  else t.walk linkLimit (t.startOf p) (Path.split p.octets)

def isDirectory (t : FileTree) (p : Path) : Bool :=
  match t.resolve p with
  | .ok (.directory _) => true
  | _ => false

def content (t : FileTree) (p : Path) : Except SystemError Octets :=
  match t.resolve p with
  | .ok (.file content) => .ok content
  | .ok (.directory _) => .error .isADirectory
  | .error error => .error error

/-- Why what is at a location cannot be listed. -/
def refusal? (t : FileTree) : Location → Option SystemError
  | [] => none
  | name :: up => match t.entryAt? (name :: up) with
    | some (.directory refusal) => refusal
    | some _ => some .notADirectory
    | none => some .noSuchFile

/-- The location of a directory that can be listed. -/
def openDirectory (t : FileTree) (p : Path) : Except SystemError Location :=
  match t.resolve p with
  | .ok (.directory l) => match t.refusal? l with
    | none => .ok l
    | some error => .error error
  | .ok (.file _) => .error .notADirectory
  | .error error => .error error

end FileTree

end ThermalGauge
