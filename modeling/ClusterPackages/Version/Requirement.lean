import ClusterPackages.Version.Basic

/-!
Requirements on versions: rows of comparators that must all accept. A pre-release is accepted only
if some comparator names a pre-release of the same three numbers.
-/

namespace ClusterPackages

inductive Operator
  | exact
  | greater
  | greaterEq
  | less
  | lessEq
  | tilde
  | caret
  | wildcard
  deriving DecidableEq, Repr

/-- An operator on a version of which only the first one, two or three numbers may be given. -/
structure Comparator where
  op : Operator
  major : Nat
  minor : Option Nat
  patch : Option Nat
  pre : List Identifier
  deriving DecidableEq, Repr

/-- No comparators: every release is accepted. -/
structure Requirement where
  comparators : List Comparator
  deriving DecidableEq, Repr

namespace Comparator

def acceptsExact (c : Comparator) (v : Version) : Bool :=
  v.major = c.major && c.minor.all (· = v.minor) && c.patch.all (· = v.patch) && v.pre = c.pre

/-- The first given part that differs is greater; a part not given ends the comparison. -/
def acceptsGreater (c : Comparator) (v : Version) : Bool :=
  if v.major ≠ c.major then v.major > c.major
  else match c.minor with
    | none => false
    | some minor =>
      if v.minor ≠ minor then v.minor > minor
      else match c.patch with
        | none => false
        | some patch =>
          if v.patch ≠ patch then v.patch > patch
          else Identifier.comparePre v.pre c.pre == .gt

def acceptsLess (c : Comparator) (v : Version) : Bool :=
  if v.major ≠ c.major then v.major < c.major
  else match c.minor with
    | none => false
    | some minor =>
      if v.minor ≠ minor then v.minor < minor
      else match c.patch with
        | none => false
        | some patch =>
          if v.patch ≠ patch then v.patch < patch
          else Identifier.comparePre v.pre c.pre == .lt

/-- Same major and minor, and nothing below the given patch and pre-release. -/
def acceptsTilde (c : Comparator) (v : Version) : Bool :=
  v.major = c.major && c.minor.all (· = v.minor) &&
    match c.patch with
    | some patch =>
      if v.patch ≠ patch then v.patch > patch else Identifier.comparePre v.pre c.pre != .lt
    | none => Identifier.comparePre v.pre c.pre != .lt

/-- The leftmost number that is not zero stays, and nothing below what is given. -/
def acceptsCaret (c : Comparator) (v : Version) : Bool :=
  if v.major ≠ c.major then false
  else match c.minor, c.patch with
    | none, _ => true
    | some minor, none => if c.major > 0 then v.minor ≥ minor else v.minor = minor
    | some minor, some patch =>
      if c.major > 0 then
        if v.minor ≠ minor then v.minor > minor
        else if v.patch ≠ patch then v.patch > patch
        else Identifier.comparePre v.pre c.pre != .lt
      else if minor > 0 then
        if v.minor ≠ minor then false
        else if v.patch ≠ patch then v.patch > patch
        else Identifier.comparePre v.pre c.pre != .lt
      else
        if v.minor ≠ minor ∨ v.patch ≠ patch then false
        else Identifier.comparePre v.pre c.pre != .lt

def accepts (c : Comparator) (v : Version) : Bool :=
  match c.op with
  | .exact | .wildcard => c.acceptsExact v
  | .greater => c.acceptsGreater v
  | .greaterEq => c.acceptsExact v || c.acceptsGreater v
  | .less => c.acceptsLess v
  | .lessEq => c.acceptsExact v || c.acceptsLess v
  | .tilde => c.acceptsTilde v
  | .caret => c.acceptsCaret v

def admitsPreRelease (c : Comparator) (v : Version) : Bool :=
  c.major = v.major && c.minor = some v.minor && c.patch = some v.patch && c.pre ≠ []

end Comparator

namespace Requirement

def isMetBy (r : Requirement) (v : Version) : Bool :=
  r.comparators.all (·.accepts v) &&
    (v.pre = [] || r.comparators.any (·.admitsPreRelease v))

end Requirement

/-- A comparator on its own is a requirement of one. -/
def Comparator.isMetBy (c : Comparator) (v : Version) : Bool :=
  Requirement.isMetBy ⟨[c]⟩ v

namespace Operator

def symbol : Operator → List Char
  | .exact => ['=']
  | .greater => ['>']
  | .greaterEq => ['>', '=']
  | .less => ['<']
  | .lessEq => ['<', '=']
  | .tilde => ['~']
  | .caret => ['^']
  | .wildcard => []

end Operator

def Comparator.chars (c : Comparator) : List Char :=
  let star : List Char := if c.op = .wildcard then ['.', '*'] else []
  c.op.symbol ++ Version.number c.major ++
    match c.minor with
    | none => star
    | some minor =>
      '.' :: Version.number minor ++
        match c.patch with
        | none => star
        | some patch =>
          '.' :: Version.number patch ++
            (if c.pre = [] then [] else '-' :: Identifier.row c.pre)

def Comparator.text (c : Comparator) : String := String.ofList c.chars

def Requirement.chars (r : Requirement) : List Char :=
  if r.comparators = [] then ['*'] else Text.join [',', ' '] (r.comparators.map Comparator.chars)

def Requirement.text (r : Requirement) : String := String.ofList r.chars

end ClusterPackages
