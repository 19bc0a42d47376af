import ClusterPackages.Text.Basic

/-!
Binary floating-point numbers of sixty-four bits, finite ones only, in exact arithmetic: rounding
of a quotient to the nearest, products and quotients, and the shortest decimal that reads back.
-/

namespace ClusterPackages

/-- The number is `significand * 2 ^ exponent` with its sign. The significand has fifty-three bits,
fewer only at the least exponent. -/
structure Binary64 where
  negative : Bool
  significand : Nat
  exponent : Int
  deriving DecidableEq, Repr, Inhabited

namespace Binary64

def significandBits : Nat := 53

def leastExponent : Int := -1074

def greatestExponent : Int := 971

def zero (negative : Bool) : Binary64 := ⟨negative, 0, leastExponent⟩

def isZero (x : Binary64) : Bool := x.significand = 0

/-- The nearest natural number to `num / den`; a half goes to the even neighbour. -/
def nearest (num den : Nat) : Nat :=
  let q := num / den
  let r := num % den
  if 2 * r < den then q
  else if den < 2 * r then q + 1
  else if q % 2 = 0 then q else q + 1

/-- `num / den` in units of `2 ^ exponent`, as a quotient of natural numbers. -/
def inUnits (num den : Nat) (exponent : Int) : Nat × Nat :=
  if 0 ≤ exponent then (num, den * Nat.pow 2 exponent.toNat) else (num * Nat.pow 2 (-exponent).toNat, den)

/-- The exponent at which `num / den` has as many bits as a significand, or the least one. -/
def unitOf (num den : Nat) : Int :=
  let guess : Int := (num.log2 : Int) - den.log2 - significandBits
  let (n, d) := inUnits num den guess
  let exponent := if n / d < Nat.pow 2 significandBits then guess else guess + 1
  max exponent leastExponent

/-- The number nearest to `num / den`; nothing if it is beyond the greatest one. -/
def ofQuotient (negative : Bool) (num den : Nat) : Option Binary64 :=
  if num = 0 then some (zero negative)
  else
    let exponent := unitOf num den
    let (n, d) := inUnits num den exponent
    let significand := nearest n d
    let (significand, exponent) :=
      if significand = Nat.pow 2 significandBits then (Nat.pow 2 (significandBits - 1), exponent + 1)
      else (significand, exponent)
    if greatestExponent < exponent then none else some ⟨negative, significand, exponent⟩

def quotient (x : Binary64) : Nat × Nat :=
  if 0 ≤ x.exponent then (x.significand * Nat.pow 2 x.exponent.toNat, 1)
  else (x.significand, Nat.pow 2 (-x.exponent).toNat)

def mul (x y : Binary64) : Option Binary64 :=
  let (a, b) := x.quotient
  let (c, d) := y.quotient
  ofQuotient (x.negative != y.negative) (a * c) (b * d)

def div (x y : Binary64) : Option Binary64 :=
  let (a, b) := x.quotient
  let (c, d) := y.quotient
  ofQuotient (x.negative != y.negative) (a * d) (b * c)

def neg (x : Binary64) : Binary64 := { x with negative := !x.negative }

/-- The number nearest to `digits * 10 ^ power`. -/
def ofDecimal (negative : Bool) (digits : Nat) (power : Int) : Option Binary64 :=
  let size : Int := (digits.repr.length : Int) + power
  if digits = 0 then some (zero negative)
  -- far outside the range the power is not computed
  else if 400 < size then none
  else if size < -400 then some (zero negative)
  else if 0 ≤ power then ofQuotient negative (digits * Nat.pow 10 power.toNat) 1
  else ofQuotient negative digits (Nat.pow 10 (-power).toNat)

structure Decimal where
  digits : Nat
  power : Int
  deriving DecidableEq, Repr

def neighbours (x : Binary64) (power : Int) : Decimal × Decimal :=
  let (n, d) := x.quotient
  let q := if 0 ≤ power then n / (d * Nat.pow 10 power.toNat) else n * Nat.pow 10 (-power).toNat / d
  (⟨q, power⟩, ⟨q + 1, power⟩)

/-- The lower neighbour is at most as far as the upper one; a tie goes to the even digit. -/
def lowerIsNearer (x : Binary64) (lower : Decimal) : Bool :=
  let (n, d) := x.quotient
  let (n, d) :=
    if 0 ≤ lower.power then (n, d * Nat.pow 10 lower.power.toNat)
    else (n * Nat.pow 10 (-lower.power).toNat, d)
  let doubled := 2 * n
  let middle := (2 * lower.digits + 1) * d
  doubled < middle || (doubled = middle && lower.digits % 2 = 0)

def readsBack (x : Binary64) (c : Decimal) : Bool :=
  ofDecimal x.negative c.digits c.power = some x

def pick (x : Binary64) (power : Int) : Option Decimal :=
  let (lower, upper) := x.neighbours power
  match x.readsBack lower, x.readsBack upper with
  | true, true => some (if x.lowerIsNearer lower then lower else upper)
  | true, false => some lower
  | false, true => some upper
  | false, false => none

def leadingPower (x : Binary64) : Int :=
  let (n, d) := x.quotient
  if d ≤ n then ((n / d).repr.length : Int) - 1 else search n d 400 1
where
  search (n d : Nat) : Nat → Nat → Int
    | 0, k => -(k : Int)
    | fuel + 1, k => if d ≤ n * Nat.pow 10 k then -(k : Int) else search n d fuel (k + 1)

def Decimal.normalize (c : Decimal) : Decimal :=
  go 400 c
where
  go : Nat → Decimal → Decimal
    | 0, c => c
    | fuel + 1, c =>
      if c.digits ≠ 0 ∧ c.digits % 10 = 0 then go fuel ⟨c.digits / 10, c.power + 1⟩ else c

/-- The fewest digits that read back, of these the nearest. -/
def shortest (x : Binary64) : Decimal :=
  if x.isZero then ⟨0, 0⟩
  else
    let lead := x.leadingPower
    match (List.range 17).findSome? (fun (k : Nat) => x.pick (lead - (k : Int))) with
    | some c => c.normalize
    | none => ⟨0, 0⟩

/-- Positional from 0.00001 below ten to the sixteenth, with at least one fraction digit; else
with an exponent. -/
def chars (x : Binary64) : List Char :=
  let c := x.shortest
  let digits := c.digits.repr.toList
  let point : Int := digits.length + c.power
  let body :=
    if x.isZero then ['0', '.', '0']
    else if 0 ≤ c.power ∧ point ≤ 16 then
      digits ++ List.replicate c.power.toNat '0' ++ ['.', '0']
    else if 0 < point ∧ point ≤ 16 then
      digits.take point.toNat ++ '.' :: digits.drop point.toNat
    else if -5 < point ∧ point ≤ 0 then
      '0' :: '.' :: List.replicate (-point).toNat '0' ++ digits
    else
      (match digits with
        | first :: second :: more => first :: '.' :: second :: more
        | short => short) ++ 'e' :: (toString (point - 1)).toList
  if x.negative then '-' :: body else body

end Binary64
end ClusterPackages
