import ThermalGauge.Text.Utf8

/-!
# Text for a terminal

A text that is shown to somebody must not steer the terminal it is shown on.  The sequences
that begin with an escape character are left out, up to where a terminal takes them to end,
and so are control characters other than blanks.  A blank control within a sequence is shown
where the terminal would obey it at once.  In a text the sequence has ended there.  On a
stream it is only interrupted: what follows is shown up to the next character that cannot be,
and the sequence takes up from that one.
-/

namespace ThermalGauge.Text

/-- Where characters go: into a text, or to a terminal as they come. -/
inductive Outlet where
  | text
  | stream
  deriving DecidableEq, Repr

/-- The part of a sequence that a terminal is in. -/
inductive Sequence where
  /-- After the escape character. -/
  | escape
  /-- After characters that announce one more. -/
  | announced
  /-- Among the parameters of a control sequence. -/
  | control
  /-- In a string that a bell ends. -/
  | title
  /-- Before the parameters of a string for a device. -/
  | header
  /-- Among these parameters. -/
  | parameters
  /-- Behind them, before the string begins. -/
  | intermediates
  /-- In a string that the octet `9C` ends. -/
  | body
  deriving DecidableEq, Repr

namespace Sequence

/-- How a sequence goes on with a visible character of ASCII; not at all, if that ends it. -/
def next? (q : Sequence) (n : Nat) : Option Sequence :=
  match q with
  | escape =>
    if n = 0x5B then some control
    else if n = 0x5D then some title
    else if n = 0x50 then some header
    else if n = 0x58 || n = 0x5E || n = 0x5F then some body
    else if n ≤ 0x2F then some announced
    else none
  | announced => if n ≤ 0x2F then some announced else none
  | control => if n ≤ 0x3F then some control else none
  | title => some title
  | header =>
    some (if n ≤ 0x2F then intermediates else if n ≤ 0x3F then parameters else body)
  | parameters =>
    some (if n ≤ 0x2F then intermediates else if n ≤ 0x3B then parameters else body)
  | intermediates => some (if n ≤ 0x2F then intermediates else body)
  | body => some body

/-- Whether controls within the sequence are obeyed at once. -/
def obeysControls : Sequence → Bool
  | escape | announced | control => true
  | _ => false

/-- Whether a control character ends the sequence; of escape, cancel and substitute, which
end any, this says nothing. -/
def endsAtControl (q : Sequence) (n : Nat) : Bool := q = title && n = 0x7

/-- Whether a character outside of ASCII ends the sequence. -/
def endsWithin (q : Sequence) (c : Char) : Bool := q = body && 0x9C ∈ Utf8.encodeChar c

end Sequence

/-- Where a terminal is: outside of any sequence, within one, or behind a blank that
interrupted one. -/
inductive TerminalState where
  | ground
  | within (q : Sequence)
  | interrupted (q : Sequence)
  deriving DecidableEq, Repr

def isBlankControl (n : Nat) : Bool := n = 0x9 || n = 0xA || n = 0xC || n = 0xD

def isControl (n : Nat) : Bool := n < 0x20 || n = 0x7F

namespace TerminalState

def ofSequence? : Option Sequence → TerminalState
  | some q => within q
  | none => ground

/-- Behind a blank control within a sequence. -/
def afterBlank (outlet : Outlet) (q : Sequence) : TerminalState :=
  match outlet with
  | .text => ground
  | .stream => interrupted q

/-- Whether a character within a sequence is shown, and where the terminal is after it. -/
def nextWithin (outlet : Outlet) (q : Sequence) (c : Char) : Bool × TerminalState :=
  let n := c.toNat
  if 0x80 ≤ n then (false, if q.endsWithin c then ground else within q)
  else if isControl n then
    if q.obeysControls && isBlankControl n then (true, afterBlank outlet q)
    else (false, if q.endsAtControl n then ground else within q)
  else (false, ofSequence? (q.next? n))

def next (outlet : Outlet) (state : TerminalState) (c : Char) : Bool × TerminalState :=
  let n := c.toNat
  if n = 0x1B then (false, within .escape)
  else if n = 0x18 || n = 0x1A then (false, ground)
  else match state with
    | ground => (!isControl n || isBlankControl n, ground)
    | within q => nextWithin outlet q c
    | interrupted q =>
      if 0x80 ≤ n then (true, ground)
      else if !isControl n || isBlankControl n then (true, interrupted q)
      else nextWithin outlet q c

def shown (outlet : Outlet) (state : TerminalState) : List Char → List Char
  | [] => []
  | c :: cs =>
    match state.next outlet c with
    | (true, after) => c :: after.shown outlet cs
    | (false, after) => after.shown outlet cs

end TerminalState

/-- The characters of a text that a terminal may be given. -/
def harmless (outlet : Outlet) (cs : List Char) : List Char :=
  TerminalState.ground.shown outlet cs

/-- Up to the first line break, which may come with a carriage return. -/
def firstLine (cs : List Char) : List Char :=
  match cs.dropWhile (· ≠ '\n') with
  | [] => cs
  | _ =>
    let line := cs.takeWhile (· ≠ '\n')
    if line.getLast? = some '\r' then line.dropLast else line

end ThermalGauge.Text
