import ClusterPackages.Text.Basic

/-!
Versions: three numbers, the identifiers of a pre-release and those of the build metadata.
Precedence compares the numbers and the pre-release; the build metadata stays out of it.
-/

namespace ClusterPackages

/-- One part of a dotted row: letters, digits and hyphens, at least one. -/
abbrev Identifier := List Char

structure Version where
  major : Nat
  minor : Nat
  patch : Nat
  /-- Empty for a release. -/
  pre : List Identifier
  build : List Identifier
  deriving DecidableEq, Repr

namespace Identifier

def isNumeric (id : Identifier) : Bool := id.all Text.isDigit

def compareText : List Char → List Char → Ordering
  | [], [] => .eq
  | [], _ :: _ => .lt
  | _ :: _, [] => .gt
  | a :: as, b :: bs => (compare a.toNat b.toNat).then (compareText as bs)

/-- Numbers come before names, shorter numbers before longer ones; numbers have no leading zero,
so this is the order of their values. -/
def compare (a b : Identifier) : Ordering :=
  match a.isNumeric, b.isNumeric with
  | true, true => (Ord.compare a.length b.length).then (compareText a b)
  | true, false => .lt
  | false, true => .gt
  | false, false => compareText a b

def compareRows : List Identifier → List Identifier → Ordering
  | [], [] => .eq
  | [], _ :: _ => .lt
  | _ :: _, [] => .gt
  | a :: as, b :: bs => (a.compare b).then (compareRows as bs)

/-- A release comes after each of its pre-releases. -/
def comparePre : List Identifier → List Identifier → Ordering
  | [], [] => .eq
  | [], _ :: _ => .gt
  | _ :: _, [] => .lt
  | as, bs => compareRows as bs

def row (ids : List Identifier) : List Char := Text.join ['.'] ids

end Identifier

namespace Version

def comparePrecedence (a b : Version) : Ordering :=
  (compare a.major b.major).then <|
    (compare a.minor b.minor).then <|
      (compare a.patch b.patch).then (Identifier.comparePre a.pre b.pre)

def number (n : Nat) : List Char := n.repr.toList

def chars (v : Version) : List Char :=
  number v.major ++ '.' :: number v.minor ++ '.' :: number v.patch ++
    (if v.pre = [] then [] else '-' :: Identifier.row v.pre) ++
    (if v.build = [] then [] else '+' :: Identifier.row v.build)

def text (v : Version) : String := String.ofList v.chars

end Version
end ClusterPackages
