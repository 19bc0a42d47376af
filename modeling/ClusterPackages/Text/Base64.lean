import ClusterPackages.Text.Utf8

/-!
Base64: three bytes as four characters, the last group filled up with equals signs. Reading
accepts exactly what writing produces.
-/

namespace ClusterPackages.Text.Base64

def digit (n : Nat) : Char :=
  if n < 26 then Char.ofNat (n + 65)
  else if n < 52 then Char.ofNat (n + 71)
  else if n < 62 then Char.ofNat (n - 4)
  else if n = 62 then '+'
  else '/'

def digitValue? (c : Char) : Option Nat :=
  if 'A' ≤ c ∧ c ≤ 'Z' then some (c.toNat - 65)
  else if 'a' ≤ c ∧ c ≤ 'z' then some (c.toNat - 71)
  else if '0' ≤ c ∧ c ≤ '9' then some (c.toNat + 4)
  else if c = '+' then some 62
  else if c = '/' then some 63
  else none

def encode : Bytes → List Char
  | a :: b :: c :: rest =>
    digit (a / 4) :: digit (a % 4 * 16 + b / 16) :: digit (b % 16 * 4 + c / 64) :: digit (c % 64) ::
      encode rest
  | [a, b] => [digit (a / 4), digit (a % 4 * 16 + b / 16), digit (b % 16 * 4), '=']
  | [a] => [digit (a / 4), digit (a % 4 * 16), '=', '=']
  | [] => []

/-- The bits of the last digit that no byte takes must be zero. -/
def decode? : List Char → Option Bytes
  | [] => some []
  | [a, b, '=', '='] => do
    let w ← digitValue? a
    let x ← digitValue? b
    if x % 16 = 0 then some [w * 4 + x / 16] else none
  | [a, b, c, '='] => do
    let w ← digitValue? a
    let x ← digitValue? b
    let y ← digitValue? c
    if y % 4 = 0 then some [w * 4 + x / 16, x % 16 * 16 + y / 4] else none
  | a :: b :: c :: d :: rest => do
    let w ← digitValue? a
    let x ← digitValue? b
    let y ← digitValue? c
    let z ← digitValue? d
    let bytes ← decode? rest
    some ([w * 4 + x / 16, x % 16 * 16 + y / 4, y % 4 * 64 + z] ++ bytes)
  | _ => none

end ClusterPackages.Text.Base64
