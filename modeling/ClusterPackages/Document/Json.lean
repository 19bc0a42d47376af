import ClusterPackages.Document.Node

/-!
Reading JSON text into nodes. Numbers are read by the digits that fit sixty-four bits: what comes
after them only scales the number, in one rounded multiplication or division.
-/

namespace ClusterPackages.Json

def isSpace (c : Char) : Bool := c == ' ' || c == '\n' || c == '\t' || c == '\r'

def skipSpace (cs : List Char) : List Char := cs.dropWhile isSpace

/-! ## Numbers -/

def wordLimit : Nat := Nat.pow 2 64

/-- Takes digits as long as the number stays below the word limit, and counts the digits taken. -/
def absorb : Nat → List Char → Nat × Nat
  | n, [] => (n, 0)
  | n, c :: cs =>
    let next := 10 * n + Text.digitValue c
    if next < wordLimit then
      let (m, taken) := absorb next cs
      (m, taken + 1)
    else (n, 0)

/-- The largest power of ten by which a number is scaled in one step. -/
def scaleStep : Nat := 308

def scaleDown : (fuel : Nat) → Binary64 → Nat → Option Binary64
  | 0, x, _ => some x
  | fuel + 1, x, power =>
    if power ≤ scaleStep then do x.div (← Binary64.ofDecimal false 1 power)
    else if x.isZero then some x
    else do scaleDown fuel (← x.div (← Binary64.ofDecimal false 1 scaleStep)) (power - scaleStep)

/-- `significand * 10 ^ power`, rounded first to a number and then once per step. -/
def scale (significand : Nat) (power : Int) : Option Binary64 := do
  let x ← Binary64.ofQuotient false significand 1
  if 0 ≤ power then
    if power ≤ scaleStep then x.mul (← Binary64.ofDecimal false 1 power)
    else if x.isZero then some x
    else none
  else scaleDown 8 x (-power).toNat

/-- Exponents are counted in thirty-two bits. -/
def powerLimit : Int := 2147483647

def clampPower (n : Int) : Int := max (-powerLimit - 1) (min powerLimit n)

def signed (negative : Bool) (x : Binary64) : Binary64 := if negative then x.neg else x

def floatNode (negative : Bool) (significand : Nat) (power : Int) : Node :=
  match scale significand power with
  | some x => .atom (.float (signed negative x))
  | none => .unreadable

/-- An exponent that is itself out of range makes zero of what is zero or small. -/
def exponentNode (negative : Bool) (significand : Nat) (power : Int) (down : Bool)
    (digits : List Char) : Node :=
  let n : Int := Text.decimal digits
  if powerLimit < n then
    if significand ≠ 0 ∧ !down then .unreadable
    else .atom (.float (Binary64.zero negative))
  else floatNode negative significand (clampPower (if down then power - n else power + n))

/-- Whole numbers are kept; a minus before zero, or before a number too large, makes a float. -/
def wholeNode (negative : Bool) (n : Nat) : Node :=
  if !negative then .atom (.int n)
  else if n ≠ 0 ∧ n ≤ Nat.pow 2 63 then .atom (.int (-n))
  else floatNode true n 0

/-- A node, and the text after it; no text if reading stopped inside. -/
abbrev Step := Node × Option (List Char)

def stop (f : Fault) : Step := (.fault f, none)

def faultAt : List Char → Fault
  | [] => .unfinished
  | _ :: _ => .malformed

def readExponent (negative : Bool) (significand : Nat) (power : Int) (cs : List Char) : Step :=
  let (down, cs) := match cs with
    | '+' :: rest => (false, rest)
    | '-' :: rest => (true, rest)
    | _ => (false, cs)
  match cs.takeWhile Text.isDigit with
  | [] => stop (faultAt cs)
  | digits =>
    (exponentNode negative significand power down digits, some (cs.dropWhile Text.isDigit))

def isExponentLetter (c : Char) : Bool := c == 'e' || c == 'E'

def readNumber (negative : Bool) (cs : List Char) : Step :=
  let digits := cs.takeWhile Text.isDigit
  let rest := cs.dropWhile Text.isDigit
  match digits with
  | [] => stop (faultAt cs)
  | '0' :: _ :: _ => stop .malformed
  | _ =>
    let (significand, taken) := absorb 0 digits
    let power : Int := (digits.length - taken : Nat)
    match rest with
    | '.' :: rest =>
      let fraction := rest.takeWhile Text.isDigit
      let after := rest.dropWhile Text.isDigit
      if fraction = [] then stop (faultAt after)
      else
        let (significand, taken) := absorb significand fraction
        let power := power - taken
        match after with
        | c :: more =>
          if isExponentLetter c then readExponent negative significand power more
          else (floatNode negative significand power, some after)
        | [] => (floatNode negative significand power, some after)
    | c :: more =>
      if isExponentLetter c then readExponent negative significand power more
      else if power = 0 then (wholeNode negative significand, some rest)
      else (floatNode negative significand power, some rest)
    | [] =>
      if power = 0 then (wholeNode negative significand, some rest)
      else (floatNode negative significand power, some rest)

/-! ## Texts -/

def hexQuad? (a b c d : Char) : Option Nat := do
  return ((← Text.hexValue? a) * 16 + (← Text.hexValue? b)) * 256 +
    ((← Text.hexValue? c) * 16 + (← Text.hexValue? d))

def isHighSurrogate (n : Nat) : Bool := 0xD800 ≤ n && n < 0xDC00

def isLowSurrogate (n : Nat) : Bool := 0xDC00 ≤ n && n < 0xE000

def escaped? : Char → Option Char
  | '"' => some '"'
  | '\\' => some '\\'
  | '/' => some '/'
  | 'b' => some '\x08'
  | 'f' => some '\x0c'
  | 'n' => some '\n'
  | 'r' => some '\r'
  | 't' => some '\t'
  | _ => none

/-- A text from after its opening quote, its characters so far in reverse; nothing once it holds
half a surrogate pair. -/
def readText : Option (List Char) → List Char → Except Fault (Option String × List Char)
  | acc, '"' :: rest => .ok (acc.map fun r => String.ofList r.reverse, rest)
  | acc, '\\' :: 'u' :: a :: b :: c :: d :: rest =>
    match hexQuad? a b c d with
    | none => .error .malformed
    | some n =>
      if isLowSurrogate n then readText none rest
      else if isHighSurrogate n then
        match _hr : rest with
        | '\\' :: 'u' :: e :: f :: g :: h :: more =>
          match hexQuad? e f g h with
          | none => .error .malformed
          | some m =>
            if isLowSurrogate m then
              readText (acc.map (Char.ofNat (0x10000 + (n - 0xD800) * 0x400 + (m - 0xDC00)) :: ·))
                more
            else readText none rest
        | _ => readText none rest
      else readText (acc.map (Char.ofNat n :: ·)) rest
  | _, '\\' :: 'u' :: _ => .error .unfinished
  | acc, '\\' :: c :: rest =>
    match escaped? c with
    | some e => readText (acc.map (e :: ·)) rest
    | none => .error .malformed
  | acc, c :: rest =>
    if c == '\\' then .error .unfinished
    else if c.toNat < 0x20 then .error .malformed
    else readText (acc.map (c :: ·)) rest
  | _, [] => .error .unfinished
termination_by _ cs => cs.length
decreasing_by all_goals (subst_vars; simp; try omega)

def readTextNode (cs : List Char) : Step :=
  match readText (some []) cs with
  | .ok (some s, rest) => (.text s, some rest)
  | .ok (none, rest) => (.unreadable, some rest)
  | .error f => stop f

/-! ## Values -/

def readWord (word : List Char) (node : Node) (cs : List Char) : Step :=
  match word, cs with
  | [], _ => (node, some cs)
  | _ :: _, [] => stop .unfinished
  | w :: ws, c :: rest => if w = c then readWord ws node rest else stop .malformed

mutual
def readValue : (fuel : Nat) → List Char → Step
  | 0, _ => stop .malformed
  | fuel + 1, cs =>
    match skipSpace cs with
    | [] => stop .unfinished
    | 'n' :: rest => readWord ['u', 'l', 'l'] (.atom .null) rest
    | 't' :: rest => readWord ['r', 'u', 'e'] (.atom (.bool true)) rest
    | 'f' :: rest => readWord ['a', 'l', 's', 'e'] (.atom (.bool false)) rest
    | '-' :: rest => readNumber true rest
    | '"' :: rest => readTextNode rest
    | '[' :: rest =>
      let (items, after) := readItems fuel true rest
      (.list none items, after)
    | '\x7b' :: rest =>
      let (entries, after) := readEntries fuel true rest
      (.record none entries, after)
    | cs@(c :: _) => if Text.isDigit c then readNumber false cs else stop .malformed

def readItems : (fuel : Nat) → (first : Bool) → List Char → List Node × Option (List Char)
  | 0, _, _ => ([.fault .malformed], none)
  | fuel + 1, first, cs =>
    let item (cs : List Char) : List Node × Option (List Char) :=
      match readValue fuel cs with
      | (n, none) => ([n], none)
      | (n, some rest) =>
        let (more, after) := readItems fuel false rest
        (n :: more, after)
    match skipSpace cs with
    | [] => ([.fault .unfinished], none)
    | ']' :: rest => ([], some rest)
    | ',' :: rest =>
      if first then ([.fault .malformed], none)
      else match skipSpace rest with
        | ']' :: _ => ([.fault .malformed], none)
        | rest => item rest
    | cs => if first then item cs else ([.fault .malformed], none)

def readEntries :
    (fuel : Nat) → (first : Bool) → List Char → List (Node × Node) × Option (List Char)
  | 0, _, _ => ([(.fault .malformed, .fault .malformed)], none)
  | fuel + 1, first, cs =>
    let halt (f : Fault) : List (Node × Node) × Option (List Char) := ([(.fault f, .fault f)], none)
    let entry (cs : List Char) : List (Node × Node) × Option (List Char) :=
      match readTextNode cs with
      | (k, none) => ([(k, k)], none)
      | (k, some rest) =>
        match skipSpace rest with
        | ':' :: rest =>
          match readValue fuel rest with
          | (v, none) => ([(k, v)], none)
          | (v, some rest) =>
            let (more, after) := readEntries fuel false rest
            ((k, v) :: more, after)
        | rest => ([(k, .fault (faultAt rest))], none)
    match skipSpace cs with
    | [] => halt .unfinished
    | '\x7d' :: rest => ([], some rest)
    | '"' :: rest => if first then entry rest else halt .malformed
    | ',' :: rest =>
      if first then halt .malformed
      else match skipSpace rest with
        | '"' :: rest => entry rest
        | rest => halt (faultAt rest)
    | _ => halt .malformed
end

def depthLimit : Nat := 127

/-- Reads a text as one document, with nothing but white space after it. -/
def read (cs : List Char) : Document :=
  let (root, after) := readValue (cs.length + 1) cs
  { format := .json, root, anchors := [], jumpLimit := 0, depthLimit := some depthLimit,
    ending := match after with
      | none => none
      | some rest => if skipSpace rest = [] then none else some .malformed }

end ClusterPackages.Json
