import ClusterPackages.Text.Basic

/-!
Durations and their text: rows of numbers with units. A written duration has each unit at most
once, the largest first; a read one may repeat and mix them, and the parts add up.
-/

namespace ClusterPackages

/-- A time span in nanoseconds; its whole seconds fit in sixty-four bits. -/
structure Duration where
  nanos : Nat
  deriving DecidableEq, Repr, Inhabited

namespace Duration

def nanosPerSecond : Nat := 1000000000

def wordLimit : Nat := Nat.pow 2 64

def limit : Nat := wordLimit * nanosPerSecond

def ofSeconds (n : Nat) : Duration := ⟨n * nanosPerSecond⟩

def seconds (d : Duration) : Nat := d.nanos / nanosPerSecond

def subsecondNanos (d : Duration) : Nat := d.nanos % nanosPerSecond

/-! ## Units -/

inductive TimeUnit
  | year
  | month
  | week
  | day
  | hour
  | minute
  | second
  | millisecond
  | microsecond
  | nanosecond
  deriving DecidableEq, Repr

namespace TimeUnit

/-- A year has 365.25 days and a month 30.44. -/
def nanos : TimeUnit → Nat
  | year => 31557600 * nanosPerSecond
  | month => 2630016 * nanosPerSecond
  | week => 604800 * nanosPerSecond
  | day => 86400 * nanosPerSecond
  | hour => 3600 * nanosPerSecond
  | minute => 60 * nanosPerSecond
  | second => nanosPerSecond
  | millisecond => 1000000
  | microsecond => 1000
  | nanosecond => 1

def names : TimeUnit → List String
  | year => ["years", "year", "yr", "yrs", "y"]
  | month => ["months", "month", "M"]
  | week => ["weeks", "week", "wk", "wks", "w"]
  | day => ["days", "day", "d"]
  | hour => ["hours", "hour", "hr", "hrs", "h"]
  | minute => ["minutes", "minute", "min", "mins", "m"]
  | second => ["seconds", "second", "secs", "sec", "s"]
  | millisecond => ["millis", "msec", "ms"]
  | microsecond => ["usec", "us", "\u00b5s"]
  | nanosecond => ["nanos", "nsec", "ns"]

def all : List TimeUnit :=
  [year, month, week, day, hour, minute, second, millisecond, microsecond, nanosecond]

def ofName? (name : List Char) : Option TimeUnit :=
  all.find? fun u => u.names.any fun n => n.toList == name

/-- Counted in words of nanoseconds rather than of seconds. -/
def isFine (u : TimeUnit) : Bool := u.nanos < nanosPerSecond

end TimeUnit

/-! ## Reading -/

def ofWord? (n : Nat) : Option Nat := if n < wordLimit then some n else none

def plus? (total : Nat) (seconds nanos : Nat) : Option Nat := do
  let nanos ← ofWord? (total % nanosPerSecond + nanos)
  let total := (total / nanosPerSecond + seconds) * nanosPerSecond + nanos
  if total < limit then some total else none

def addWhole? (total n : Nat) (u : TimeUnit) : Option Nat :=
  if u.isFine then do plus? total 0 (← ofWord? (n * u.nanos))
  else do plus? total (← ofWord? (n * (u.nanos / nanosPerSecond))) 0

/-- Adds a fraction of a unit, cut to nanoseconds, or to seconds from the hour on. -/
def addFraction? (total numerator denominator : Nat) (u : TimeUnit) : Option Nat :=
  if u = .nanosecond then none
  else if u.nanos ≤ TimeUnit.minute.nanos then do
    plus? total 0 ((← ofWord? (numerator * u.nanos)) / denominator)
  else do
    plus? total ((← ofWord? (numerator * (u.nanos / nanosPerSecond))) / denominator) 0

/-- More digits of a number, with blanks between them. -/
def wholePart : Nat → List Char → Option (Nat × List Char)
  | n, [] => some (n, [])
  | n, c :: cs =>
    if Text.isDigit c then do wholePart (← ofWord? (10 * n + Text.digitValue c)) cs
    else if Text.isBlank c then wholePart n cs
    else some (n, c :: cs)

def fractionPart : Nat → Nat → List Char → Option (Nat × Nat × List Char)
  | n, d, [] => some (n, d, [])
  | n, d, c :: cs =>
    if Text.isDigit c then do
      fractionPart (← ofWord? (10 * n + Text.digitValue c)) (← ofWord? (10 * d)) cs
    else if Text.isBlank c then fractionPart n d cs
    else some (n, d, c :: cs)

def isUnitChar (c : Char) : Bool := Text.isAsciiLetter c || c == '\u00b5'

/-- One number with its unit, from after its first digit on, added to a total. -/
def readSpan (total first : Nat) (cs : List Char) : Option (Nat × List Char) := do
  let (n, cs) ← wholePart first cs
  match cs with
  | '.' :: cs =>
    let (numerator, denominator, cs) ← fractionPart 0 1 cs
    let unit ← TimeUnit.ofName? (cs.takeWhile isUnitChar)
    if denominator = 1 then none
    else
      let total ← addFraction? (← addWhole? total n unit) numerator denominator unit
      return (total, cs.dropWhile isUnitChar)
  | cs =>
    let unit ← TimeUnit.ofName? (cs.takeWhile isUnitChar)
    return (← addWhole? total n unit, cs.dropWhile isUnitChar)

/-- What follows a unit: a digit at once, or blanks and then a digit or the end. -/
def readSpans : (fuel : Nat) → (total : Nat) → List Char → Option Nat
  | 0, _, _ => none
  | fuel + 1, total, cs =>
    match cs.dropWhile Text.isBlank with
    | [] => some total
    | c :: cs =>
      if Text.isDigit c then do
        let (total, cs) ← readSpan total (Text.digitValue c) cs
        readSpans fuel total cs
      else none

/-- A zero needs no unit; an empty text is no duration. -/
def ofText? (s : String) : Option Duration :=
  let cs := s.toList
  if cs = ['0'] then some ⟨0⟩
  else if cs.all Text.isBlank then none
  else (readSpans (cs.length + 1) 0 cs).map Duration.mk

/-! ## Writing -/

def writtenUnits : List (TimeUnit × String × String) :=
  [(.year, "year", "years"), (.month, "month", "months"), (.day, "day", "days"), (.hour, "h", "h"),
   (.minute, "m", "m"), (.second, "s", "s"), (.millisecond, "ms", "ms"),
   (.microsecond, "us", "us"), (.nanosecond, "ns", "ns")]

def parts : List (TimeUnit × String × String) → Nat → List String
  | [], _ => []
  | (u, one, many) :: rest, n =>
    let count := n / u.nanos
    let more := parts rest (n % u.nanos)
    if count = 0 then more else (toString count ++ (if count = 1 then one else many)) :: more

def text (d : Duration) : String :=
  if d.nanos = 0 then "0s" else " ".intercalate (parts writtenUnits d.nanos)

end Duration
end ClusterPackages
