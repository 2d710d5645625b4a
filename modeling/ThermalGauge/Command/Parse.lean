import ThermalGauge.Command.Arguments

/-!
# Reading arguments

Arguments are read from left to right.  An option that takes a value waits for it; the value
that follows it is looked into no sooner than the next option is met or the arguments end,
while one in the same argument is looked into at once.  Help and version end the reading
where they stand, and so does the first misuse.
-/

namespace ThermalGauge

namespace Command

/-- The values so far, the options that were given, and the one whose value has not been
looked into, with that value if it is there. -/
structure Progress where
  arguments : Arguments
  given : List Opt
  pending : Option (Opt × Option Octets)

namespace Progress

def initial : Progress := ⟨default, [], none⟩

def readSource (text : String) : Except ValueRefusal Selection :=
  (Settings.readSelection text).mapError .misconfigured

def readMargin (text : String) : Except ValueRefusal Binary32 :=
  (Binary32.read text).mapError .decimal

def readInterval (text : String) : Except ValueRefusal UInt64 :=
  (Text.readUInt64 text).mapError .numeral

/-- A count is read as a number of 64 bits with a sign first. -/
def readCount (text : String) : Except ValueRefusal UInt32 :=
  match Text.readWithin (1 <<< 63) text.toList with
  | .error why => .error (.numeral why)
  | .ok value =>
    if 0 ≤ value ∧ value < countBound then .ok (.ofNat value.toNat)
    else .error (.outOfRange value)

def readWith {α : Type} (o : Opt) (read : String → Except ValueRefusal α) (value : Octets) :
    Except Stop α :=
  match Utf8.decode? value with
  | none => .error (.misuse .notText)
  | some text => match read text with
    | .ok a => .ok a
    | .error why => .error (.misuse (.valueInvalid o text why))

def assign (a : Arguments) (o : Opt) (value : Octets) : Except Stop Arguments :=
  match o with
  | .source => (readWith o readSource value).map fun selection => { a with selection }
  | .sysfsRoot =>
    if value.isEmpty then .error (.misuse (.valueMissing o))
    else .ok { a with sysfsRoot := ⟨value⟩ }
  | .onsetMargin => (readWith o readMargin value).map fun onsetMargin => { a with onsetMargin }
  | .intervalMs => (readWith o readInterval value).map fun intervalMs => { a with intervalMs }
  | .count => (readWith o readCount value).map fun count => { a with count }
  | .watch => .ok { a with watch := true }
  | .help => .error .help
  | .version => .error .version

/-- An option with its value; a switch has an empty one. -/
def store (p : Progress) (o : Opt) (value : Octets) : Except Stop Progress :=
  if o ∈ p.given then .error (.misuse (.repeated o))
  else (assign p.arguments o value).map fun arguments =>
    { p with arguments, given := o :: p.given }

def settle (p : Progress) : Except Stop Progress :=
  match p.pending with
  | none => .ok p
  | some (o, none) => .error (.misuse (.valueMissing o))
  | some (o, some value) => { p with pending := none }.store o value

def give (p : Progress) (o : Opt) (value : Octets) : Except Stop Progress := do
  (← p.settle).store o value

def await (p : Progress) (o : Opt) : Except Stop Progress := do
  return { ← p.settle with pending := some (o, none) }

def unexpected (argument : Octets) : Stop := .misuse (.unexpected (Utf8.decodeLossy argument))

def equalsSign : UInt8 := 0x3D

def dash : UInt8 := 0x2D

/-- What stands before the first equals sign, and what stands after it if there is one. -/
def cutValue (body : Octets) : Octets × Option Octets :=
  match body.dropWhile (· != equalsSign) with
  | [] => (body, none)
  | _ :: value => (body.takeWhile (· != equalsSign), some value)

/-- An argument that begins with two dashes; `body` is the rest of it. -/
def readLong (p : Progress) (body : Octets) : Except Stop Progress :=
  let (name, value?) := cutValue body
  match (Utf8.decode? name).bind Opt.ofLong? with
  | none => .error (unexpected (dash :: dash :: name))
  | some o => match o.takesValue, value? with
    | true, some value => p.give o value
    | true, none => p.await o
    | false, some value => .error (.misuse (.valueUnneeded o (Utf8.decodeLossy value)))
    | false, none => p.give o []

/-- The value that follows a letter in the same argument, without an equals sign before
it. -/
def attached (rest : Octets) : Octets :=
  match rest with
  | c :: value => if c = equalsSign then value else rest
  | [] => []

/-- The letters after a single dash.  The first one that takes a value has the rest of the
argument for it; `fuel` is no less than the number of octets. -/
def readShort (p : Progress) : Nat → Octets → Except Stop Progress
  | _, [] => .ok p
  | 0, _ => .ok p
  | fuel + 1, letters =>
    match Utf8.pieces letters with
    | .char c :: _ =>
      let rest := letters.drop (Utf8.encode c.toString).length
      match Opt.ofShort? c with
      | none => .error (.misuse (.unexpected (String.ofList ['-', c])))
      | some o =>
        if o.takesValue then
          if rest.isEmpty then p.await o else p.give o (attached rest)
        else match p.give o [] with
          | .error stop => .error stop
          | .ok p => p.readShort fuel rest
    | _ => .error (unexpected (dash :: letters))

/-- An argument that is neither an option nor a list of letters. -/
def readPlain (p : Progress) (argument : Octets) : Except Stop Progress :=
  match p.pending with
  | some (o, none) => .ok { p with pending := some (o, some argument) }
  | _ => .error (unexpected argument)

def readAll (p : Progress) : List Octets → Except Stop Progress
  | [] => p.settle
  | argument :: arguments =>
    match argument with
    | 0x2D :: 0x2D :: body =>
      if body.isEmpty then
        match arguments with
        | [] => p.settle
        | plain :: _ => .error (unexpected plain)
      else match p.readLong body with
        | .error stop => .error stop
        | .ok p => p.readAll arguments
    | 0x2D :: letter :: letters =>
      match p.readShort (letters.length + 1) (letter :: letters) with
      | .error stop => .error stop
      | .ok p => p.readAll arguments
    | _ => match p.readPlain argument with
      | .error stop => .error stop
      | .ok p => p.readAll arguments

end Progress

def parse (arguments : List Octets) : Except Stop Arguments :=
  (Progress.initial.readAll arguments).map Progress.arguments

end Command

end ThermalGauge
