import ClusterPackages.Text.Basic

/-!
Points in time and their text: date and time of day in the calendar of today, with the offset from
universal time. A read text may have blanks between its parts; a written one is in universal time
and has whole seconds.
-/

namespace ClusterPackages

structure Timestamp where
  /-- Since the first of January 1970. -/
  seconds : Int
  /-- From a thousand million on they lie in a leap second. -/
  nanos : Nat
  deriving DecidableEq, Repr, Inhabited

namespace Timestamp

/-! ## Calendar -/

def isLeapYear (year : Int) : Bool := year % 4 == 0 && (year % 100 != 0 || year % 400 == 0)

def daysOfMonth (year : Int) (month : Nat) : Nat :=
  match month with
  | 2 => if isLeapYear year then 29 else 28
  | 4 | 6 | 9 | 11 => 30
  | _ => 31

/-- Days since the first of January 1970. Years are counted from March, so that a leap day is the
last of its year. -/
def dayNumber (year : Int) (month day : Nat) : Int :=
  let y := if month ≤ 2 then year - 1 else year
  let m := (month + 9) % 12
  365 * y + y / 4 - y / 100 + y / 400 + ((153 * m + 2) / 5 + day - 1 : Nat) - 719468

def dateOfDay (n : Int) : Int × Nat × Nat :=
  let z := n + 719468
  let era := z / 146097
  let e := (z % 146097).toNat
  let y := (e - e / 1460 + e / 36524 - e / 146096) / 365
  let rest := e - (365 * y + y / 4 - y / 100)
  let m := (5 * rest + 2) / 153
  let day := rest - (153 * m + 2) / 5 + 1
  let month := if m < 10 then m + 3 else m - 9
  let year : Int := era * 400 + y
  (if month ≤ 2 then year + 1 else year, month, day)

def secondsPerDay : Int := 86400

def firstYear : Int := -262143

def lastYear : Int := 262142

def isInRange (day : Int) : Bool := dayNumber firstYear 1 1 ≤ day && day ≤ dayNumber lastYear 12 31

/-! ## Reading -/

def number? (width : Nat) (cs : List Char) : Option (Nat × List Char) :=
  let digits := (cs.take width).takeWhile Text.isDigit
  if digits = [] then none else some (Text.decimal digits, cs.drop digits.length)

def part? (low high : Nat) (cs : List Char) : Option (Nat × List Char) := do
  let (n, cs) ← number? 2 (Text.trimStart cs)
  if low ≤ n ∧ n ≤ high then some (n, cs) else none

/-- A year with a sign may have any number of digits. -/
def year? (cs : List Char) : Option (Int × List Char) := do
  match Text.trimStart cs with
  | '-' :: cs => let (n, cs) ← number? cs.length cs; some (-n, cs)
  | '+' :: cs => let (n, cs) ← number? cs.length cs; some (n, cs)
  | cs => let (n, cs) ← number? 4 cs; some (n, cs)

def mark? (mark : Char) (cs : List Char) : Option (List Char) :=
  match Text.trimStart cs with
  | c :: cs => if c = mark then some cs else none
  | [] => none

/-- The digits after a point; those beyond the ninth do not count. -/
def fraction? (cs : List Char) : Option (Nat × List Char) :=
  match cs with
  | '.' :: cs =>
    let digits := cs.takeWhile Text.isDigit
    if digits = [] then none
    else
      let counted := digits.take 9
      some (Text.decimal counted * Nat.pow 10 (9 - counted.length), cs.drop digits.length)
  | cs => some (0, cs)

/-- The offset from universal time in seconds, at the end of the text. -/
def offset? (cs : List Char) : Option (Int × List Char) :=
  match cs with
  | 'Z' :: cs | 'z' :: cs => some (0, cs)
  | c :: a :: b :: rest =>
    if [c, a, b].map Text.asciiLower = ['u', 't', 'c'] then some (0, rest)
    else if !(Text.isDigit a && Text.isDigit b) then none
    else
      let sign? : Option Int :=
        if c = '+' then some 1 else if c = '-' ∨ c = '\u2212' then some (-1) else none
      match rest.dropWhile fun c => c == ':' || Text.isBlank c with
      | d :: e :: rest =>
        if Text.isDigit d ∧ Text.isDigit e ∧ Text.digitValue d < 6 then
          let minutes := 60 * Text.decimal [a, b] + Text.decimal [d, e]
          sign?.map fun s => (s * 60 * (minutes : Nat), rest)
        else none
      | _ => none
  | _ => none

def ofText? (s : String) : Option Timestamp := do
  let (year, cs) ← year? s.toList
  let (month, cs) ← part? 1 12 (← mark? '-' cs)
  let (day, cs) ← part? 1 31 (← mark? '-' cs)
  let cs ← match cs with
    | c :: cs => if c = 'T' ∨ c = 't' ∨ c = ' ' then some cs else none
    | [] => none
  let (hour, cs) ← part? 0 23 cs
  let (minute, cs) ← part? 0 59 (← mark? ':' cs)
  let (second, cs) ← part? 0 60 (← mark? ':' cs)
  let (nanos, cs) ← fraction? cs
  let (offset, cs) ← offset? (Text.trimStart cs)
  if !cs.all Text.isBlank then none
  else if year < firstYear ∨ lastYear < year ∨ daysOfMonth year month < day then none
  else if secondsPerDay ≤ offset.natAbs then none
  else
    let time : Int := (3600 * hour + 60 * minute + min second 59 : Nat)
    let total := dayNumber year month day * secondsPerDay + time - offset
    let nanos := if second = 60 then nanos + 1000000000 else nanos
    if isInRange (total / secondsPerDay) then some ⟨total, nanos⟩ else none

/-! ## Writing -/

def padded (width n : Nat) : String :=
  let digits := toString n
  String.ofList (List.replicate (width - digits.length) '0') ++ digits

def yearText (year : Int) : String :=
  if 0 ≤ year ∧ year ≤ 9999 then padded 4 year.toNat
  else (if year < 0 then "-" else "+") ++ padded 4 year.natAbs

def text (t : Timestamp) : String :=
  let (year, month, day) := dateOfDay (t.seconds / secondsPerDay)
  let time := (t.seconds % secondsPerDay).toNat
  let second := if t.nanos < 1000000000 then time % 60 else time % 60 + 1
  yearText year ++ "-" ++ padded 2 month ++ "-" ++ padded 2 day ++ "T" ++ padded 2 (time / 3600) ++
    ":" ++ padded 2 (time / 60 % 60) ++ ":" ++ padded 2 second ++ "Z"

end Timestamp
end ClusterPackages
