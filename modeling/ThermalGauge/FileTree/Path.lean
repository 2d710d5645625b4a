import ThermalGauge.Text.Quoted

/-!
# Paths

A path is a sequence of octets in which slashes stand between names.  It is shown with
U+FFFD in place of octets that are not UTF-8.
-/

namespace ThermalGauge

abbrev Name := Octets

structure Path where
  octets : Octets
  deriving DecidableEq, Repr

namespace Path

def slash : UInt8 := 0x2F

def dot : Name := [0x2E]

def dotDot : Name := [0x2E, 0x2E]

def ofText (s : String) : Path := ⟨Utf8.encode s⟩

def text (p : Path) : String := Utf8.decodeLossy p.octets

def quoted (p : Path) : String := Text.quoteOctets p.octets

/-- The path of an entry, with one slash between the two unless `p` is empty or ends in
one. -/
def join (p : Path) (name : Name) : Path :=
  match p.octets.getLast? with
  | none => ⟨name⟩
  | some c => if c = slash then ⟨p.octets ++ name⟩ else ⟨p.octets ++ slash :: name⟩

/-- The parts between the slashes, some of which may be empty. -/
def split : Octets → List Name
  | [] => [[]]
  | c :: rest =>
    if c = slash then [] :: split rest
    else match split rest with
      | [] => [[c]]
      | part :: parts => (c :: part) :: parts

theorem split_ne_nil (o : Octets) : split o ≠ [] := by
  cases o with
  | nil => simp [split]
  | cons c rest =>
    simp only [split]
    split
    · simp
    · split <;> simp

theorem split_append_slash (o rest : Octets) :
    split (o ++ slash :: rest) = split o ++ split rest := by
  induction o with
  | nil => simp [split]
  | cons c o ih =>
    by_cases hc : c = slash
    · simp [split, hc, ih]
    · cases ho : split o with
      | nil => exact absurd ho (split_ne_nil o)
      | cons part parts => simp [split, hc, ih, ho]

/-- An entry is found behind the names that lead to its directory. -/
theorem split_join {p : Path} {c : UInt8} (h : p.octets.getLast? = some c) (hc : c ≠ slash)
    (name : Name) : split (p.join name).octets = split p.octets ++ split name := by
  simp [join, h, hc, split_append_slash]

def isAbsolute (p : Path) : Bool := p.octets.head? == some slash

end Path

end ThermalGauge
