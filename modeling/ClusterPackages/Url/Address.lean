import ClusterPackages.Text.Basic
import ClusterPackages.Text.Quoted

/-!
Addresses of hosts that are numbers: four bytes, of which a text may leave out or join some, and
eight words of sixteen bits.
-/

namespace ClusterPackages.Url

/-! ## Four bytes -/

namespace Ipv4

def inBase? (base : Nat) (cs : List Char) : Option Nat :=
  cs.foldlM (fun n c => do
    let d ← Text.hexValue? c
    if d < base then some (base * n + d) else none) 0

/-- Decimal, after a zero octal, after a zero and an x hexadecimal. -/
def number? : List Char → Option Nat
  | [] => none
  | '0' :: 'x' :: cs | '0' :: 'X' :: cs => inBase? 16 cs
  | '0' :: c :: cs => inBase? 8 (c :: cs)
  | cs => inBase? 10 cs

def parts (cs : List Char) : List (List Char) :=
  let ps := Text.splitOn '.' cs
  if 1 < ps.length ∧ ps.getLast? = some [] then ps.dropLast else ps

def isMeant (cs : List Char) : Bool :=
  match (parts cs).getLast? with
  | some part => part ≠ [] && (part.all Text.isDigit || (number? part).isSome)
  | none => false

/-- All parts but the last are bytes; the last one takes what is left of four. -/
def ofText? (cs : List Char) : Option Nat := do
  let numbers ← (parts cs).mapM number?
  let last ← numbers.getLast?
  let first := numbers.dropLast
  if 3 < first.length ∨ first.any (255 < ·) ∨ Nat.pow 256 (4 - first.length) ≤ last then none
  else some (first.foldl (fun n b => 256 * n + b) 0 * Nat.pow 256 (4 - first.length) + last)

def text (n : Nat) : List Char :=
  Text.join ['.'] ([n / 16777216, n / 65536 % 256, n / 256 % 256, n % 256].map fun b =>
    (toString b).toList)

end Ipv4

/-! ## Eight words -/

namespace Ipv6

def word? (cs : List Char) : Option Nat :=
  if cs = [] ∨ 4 < cs.length then none else Ipv4.inBase? 16 cs

/-- Four decimal bytes without leading zeros, as two words. -/
def dotted? (cs : List Char) : Option (List Nat) := do
  let byte? (part : List Char) : Option Nat :=
    if part = [] ∨ 3 < part.length ∨ !part.all Text.isDigit ∨ (1 < part.length ∧ part.head? = some '0')
    then none
    else
      let n := Text.decimal part
      if n < 256 then some n else none
  match ← (Text.splitOn '.' cs).mapM byte? with
  | [a, b, c, d] => some [256 * a + b, 256 * c + d]
  | _ => none

/-- Words between colons; the last two may be written as four bytes. -/
def words? : List (List Char) → Option (List Nat)
  | [] => some []
  | [part] => if part.contains '.' then dotted? part else (word? part).map ([·])
  | part :: rest => do
    let w ← word? part
    let ws ← words? rest
    some (w :: ws)

def halves : List Char → List Char × Option (List Char)
  | ':' :: ':' :: rest => ([], some rest)
  | c :: rest =>
    let (before, after) := halves rest
    (c :: before, after)
  | [] => ([], none)

def ofText? (cs : List Char) : Option (List Nat) :=
  let side? (cs : List Char) : Option (List Nat) :=
    if cs = [] then some [] else words? (Text.splitOn ':' cs)
  match halves cs with
  | (cs, none) => do
    let ws ← side? cs
    if ws.length = 8 then some ws else none
  | (before, some after) => do
    -- four bytes can only be the last two words
    let ws ← if before.contains '.' then none else side? before
    let vs ← side? after
    if ws.length + vs.length < 8 then
      some (ws ++ List.replicate (8 - ws.length - vs.length) 0 ++ vs)
    else none

def zeroRun : (index : Nat) → List Nat → Nat × Nat
  | _, [] => (0, 0)
  | index, w :: ws =>
    let (start, length) := zeroRun (index + 1) ws
    let here := ((w :: ws).takeWhile (· == 0)).length
    if length ≤ here then (index, here) else (start, length)

/-- The first longest run of at least two zeros is left out. -/
def text (ws : List Nat) : List Char :=
  let written (ws : List Nat) : List Char := Text.join [':'] (ws.map Text.hexDigits)
  let (start, length) := zeroRun 0 ws
  if length < 2 then written ws
  else written (ws.take start) ++ [':', ':'] ++ written (ws.drop (start + length))

end Ipv6
end ClusterPackages.Url
