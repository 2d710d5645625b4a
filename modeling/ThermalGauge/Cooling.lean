import ThermalGauge.FileTree.Edit
import ThermalGauge.Notice
import ThermalGauge.Text.Blank
import ThermalGauge.Text.Numeral

/-!
# Cooling devices

A cooling device is a directory whose name begins with `cooling_device`.  Two files in it
tell how many steps the device has and how many of them are taken.  Devices are looked for
in a root directory; the load is that of the device closest to its limit.  A device with an
unreadable file is reported and left out, one without steps is left out.

A scan goes from one part of the root to the next.  Parts with wildcards are looked for in a
listing, as devices are.  A directory that cannot be listed is reported, and ends the scan.
-/

namespace ThermalGauge

namespace Cooling

/-- The directory in which a kernel lists its cooling devices. -/
def defaultRoot : Path := .ofText "/sys/class/thermal"

def sourceName : String := "cooling devices"

def deviceStem : Name := Utf8.encode "cooling_device"

def isDeviceName (name : Name) : Bool :=
  deviceStem.isPrefixOf name && (Utf8.decode? name).isSome

/-- Whether `p` is the working directory, written as a single dot. -/
def isHere (p : Path) : Bool := p.octets = Path.dot

/-- A name in the directory `p`; in the working directory it stands for itself.  An empty
name in the working directory makes an empty path, and nothing is found below that. -/
def entryPath (p : Path) (name : Name) : Path :=
  if isHere p then ⟨name⟩ else if p.octets.isEmpty then p else p.join name

/-- The parts of a root, and the directory with respect to which they are taken.  An empty
root is the directory above all. -/
def rootParts (root : Octets) : Path × List Name :=
  match root with
  | [] => (⟨[Path.slash]⟩, [])
  | c :: rest =>
    if c = Path.slash then (⟨[Path.slash]⟩, Path.split rest)
    else (⟨Path.dot⟩, Path.split root)

/-- The path under which the root directory is read: octets that are not UTF-8 are replaced,
a dot at the front is dropped, and slashes that follow one another count as one. -/
def scannedPath (root : Path) : Path :=
  let (start, parts) := rootParts (Utf8.encode root.text)
  parts.foldl entryPath start

/-- The octets that can stand for others in names that are looked for. -/
def wildcards : Octets := Utf8.encode "*?[]"

def hasWildcard (name : Name) : Bool := name.any wildcards.contains

/-- Why there are no devices to look at. -/
inductive Miss where
  /-- Some part of the root leads to no directory. -/
  | absent
  | refused (directory : Path) (why : SystemError)
  deriving DecidableEq, Repr

/-- The directory `p`, to be listed.  If there is an entry for it in a listing, it is known to be
one though its path may be too long to open it. -/
def listing (t : FileTree) (isKnown : Bool) (p : Path) : Except Miss Location :=
  match t.openDirectory p with
  | .ok l => .ok l
  | .error why => .error (if isKnown || t.isDirectory p then .refused p why else .absent)

/-- Goes on from `p`, part by part.  A part without wildcards is not looked at for itself, since
nothing is found below it if it leads to no directory. -/
def scanFrom (t : FileTree) : Bool → Path → List Name → Except Miss Location
  | isKnown, p, [] => listing t isKnown p
  | isKnown, p, name :: names =>
    if hasWildcard name then
      match listing t isKnown p with
      | .error miss => .error miss
      | .ok l => match t.entryAt? (name :: l) with
        | some (.directory _) => scanFrom t true (entryPath p name) names
        | some (.link _) => scanFrom t false (entryPath p name) names
        | _ => .error .absent
    else scanFrom t false (entryPath p name) names

/-- The directory in which the devices of a root are listed. -/
def scan (t : FileTree) (root : Path) : Except Miss Location :=
  let (start, parts) := rootParts (Utf8.encode root.text)
  scanFrom t false start parts

def sortNames (names : List Name) : List Name := names.mergeSort fun a b => decide (a ≤ b)

/-- The names of devices below a root, and of other entries that are named alike. -/
def candidates (t : FileTree) (root : Path) : List Name :=
  match scan t root with
  | .ok l => sortNames ((t.names l).filter isDeviceName)
  | .error _ => []

def devices (t : FileTree) (root : Path) : List Path :=
  ((candidates t root).map (entryPath (scannedPath root))).filter t.isDirectory

/-- What is told of a scan that comes to a directory that cannot be listed. -/
def scanComplaint? (t : FileTree) (root : Path) : Option Notice :=
  match scan t root with
  | .error (.refused directory why) => some (.entrySkipped directory why)
  | _ => none

/-- The number that a file at `p` holds, with blanks around it. -/
def numberIn (p : Path) (content : Octets) : Except Fault UInt64 :=
  match Utf8.decode? content with
  | none => .error (.unreadable p .notText)
  | some text =>
    let value := Text.trim text
    match Text.readUInt64 value with
    | .error _ => .error (.unexpected p value)
    | .ok n => .ok n

def readNumber (t : FileTree) (p : Path) : Except Fault UInt64 :=
  match t.content p with
  | .error error => .error (.unreadable p (.system error))
  | .ok content => numberIn p content

def currentState (device : Path) : Path := device.join FileTree.currentStateName

def maxState (device : Path) : Path := device.join FileTree.maxStateName

/-- The load of one device; a device without steps has none. -/
def deviceLoad (t : FileTree) (device : Path) : Except Fault (Option Load) :=
  match readNumber t (currentState device) with
  | .error fault => .error fault
  | .ok current => match readNumber t (maxState device) with
    | .error fault => .error fault
    | .ok max => .ok (Load.ofRatio current max)

def load? (t : FileTree) (device : Path) : Option Load :=
  match deviceLoad t device with
  | .ok load => load
  | .error _ => none

def complaint? (t : FileTree) (device : Path) : Option Notice :=
  match deviceLoad t device with
  | .ok _ => none
  | .error fault => some (.deviceSkipped device fault)

def loads (t : FileTree) (root : Path) : List Load := (devices t root).filterMap (load? t)

def log (t : FileTree) (root : Path) : Log :=
  (scanComplaint? t root).toList ++ (devices t root).filterMap (complaint? t)

/-- Directories and devices are passed over, each with a record. -/
theorem cases_of_mem_log {t : FileTree} {root : Path} {n : Notice} (h : n ∈ log t root) :
    (∃ directory why, n = .entrySkipped directory why) ∨
      ∃ device why, n = .deviceSkipped device why := by
  rcases List.mem_append.mp h with hscan | hdevice
  · rw [Option.mem_toList] at hscan
    unfold scanComplaint? at hscan
    split at hscan
    · rename_i directory why _
      cases hscan
      exact .inl ⟨directory, why, rfl⟩
    · cases hscan
  · obtain ⟨device, -, hn⟩ := List.mem_filterMap.mp hdevice
    unfold complaint? at hn
    split at hn
    · cases hn
    · rename_i why _
      cases hn
      exact .inr ⟨device, why, rfl⟩

def sample (t : FileTree) (root : Path) : Except Fault Load :=
  match Load.greatest (loads t root) with
  | some load => .ok load
  | none => .error (.noSensors sourceName)

end Cooling

end ThermalGauge
