import ClusterPackages.Text.Basic

/-!
Punycode: labels of host names written in ASCII. The ASCII characters come first; the others
follow as gaps in the order of their numbers, each gap in a mixed base that adapts to the last one.
-/

namespace ClusterPackages.Url.Punycode

def digit (n : Nat) : Char := if n < 26 then Char.ofNat (n + 97) else Char.ofNat (n + 22)

def digitValue? (c : Char) : Option Nat :=
  if 'a' ≤ c ∧ c ≤ 'z' then some (c.toNat - 97)
  else if 'A' ≤ c ∧ c ≤ 'Z' then some (c.toNat - 65)
  else if Text.isDigit c then some (Text.digitValue c + 26)
  else none

/-- The least value of a digit at a place that is not the last of its number. -/
def threshold (place bias : Nat) : Nat :=
  if place ≤ bias then 1 else if bias + 26 ≤ place then 26 else place - bias

def shrink (delta k : Nat) : Nat × Nat :=
  if 455 < delta then shrink (delta / 35) (k + 36) else (delta, k)
termination_by delta

def adapt (delta count : Nat) (isFirst : Bool) : Nat :=
  let delta := if isFirst then delta / 700 else delta / 2
  let (delta, k) := shrink (delta + delta / count) 0
  k + 36 * delta / (delta + 38)

/-! ## Writing -/

def writeNumber : (fuel : Nat) → (place bias n : Nat) → List Char
  | 0, _, _, _ => []
  | fuel + 1, place, bias, n =>
    let t := threshold place bias
    if n < t then [digit n]
    else digit (t + (n - t) % (36 - t)) :: writeNumber fuel (place + 36) bias ((n - t) / (36 - t))

structure Writer where
  out : List Char
  delta : Nat
  bias : Nat
  count : Nat

/-- Passes one character of the label while those numbered `m` are written. -/
def writeChar (basic m : Nat) (w : Writer) (c : Char) : Writer :=
  if c.toNat < m then { w with delta := w.delta + 1 }
  else if c.toNat = m then
    { out := w.out ++ writeNumber (w.delta + 1) 36 w.bias w.delta
      delta := 0
      bias := adapt w.delta (w.count + 1) (w.count == basic)
      count := w.count + 1 }
  else w

/-- Writes the characters of the given numbers, which ascend; `n` is the least number left. -/
def writeNumbers (label : List Char) (basic : Nat) : List Nat → Nat → Writer → Writer
  | [], _, w => w
  | m :: ms, n, w =>
    let w := label.foldl (writeChar basic m) { w with delta := w.delta + (m - n) * (w.count + 1) }
    writeNumbers label basic ms (m + 1) { w with delta := w.delta + 1 }

def encode (label : List Char) : List Char :=
  let basic := label.filter fun c => c.toNat < 0x80
  let others := (label.filter fun c => 0x80 ≤ c.toNat).map Char.toNat
  let numbers := (others.mergeSort (· ≤ ·)).eraseDups
  let first : Writer := { out := [], delta := 0, bias := 72, count := basic.length }
  let more := (writeNumbers label basic.length numbers 0x80 first).out
  (if basic = [] then [] else basic ++ ['-']) ++ more

/-! ## Reading -/

def readNumber : (place bias weight n : Nat) → List Char → Option (Nat × List Char)
  | _, _, _, _, [] => none
  | place, bias, weight, n, c :: cs => do
    let d ← digitValue? c
    let t := threshold place bias
    let n := n + d * weight
    if d < t then some (n, cs) else readNumber (place + 36) bias (weight * (36 - t)) n cs

/-- Puts the characters that gaps tell of among those there are. -/
def readGaps : (fuel : Nat) → (label : List Char) → (n i bias : Nat) → List Char →
    Option (List Char)
  | 0, _, _, _, _, _ => none
  | _ + 1, label, _, _, _, [] => some label
  | fuel + 1, label, n, i, bias, cs => do
    let (gap, cs) ← readNumber 36 bias 1 0 cs
    let count := label.length + 1
    let n := n + (i + gap) / count
    let i' := (i + gap) % count
    if n.isValidChar then
      readGaps fuel (label.take i' ++ Char.ofNat n :: label.drop i') n (i' + 1)
        (adapt gap count (i == 0 && label.all fun c => c.toNat < 0x80)) cs
    else none

def decode? (cs : List Char) : Option (List Char) :=
  let parts := Text.splitOn '-' cs
  let basic := Text.join ['-'] parts.dropLast
  readGaps (cs.length + 1) basic 0x80 0 72 (parts.getLast?.getD [])

end ClusterPackages.Url.Punycode
