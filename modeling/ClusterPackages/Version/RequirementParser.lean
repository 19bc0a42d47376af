import ClusterPackages.Version.Parser
import ClusterPackages.Version.Requirement

/-!
Reading requirements: comparators with commas between them, or one wildcard alone.
-/

namespace ClusterPackages

def trimSpaces (cs : List Char) : List Char := cs.dropWhile (· == ' ')

def readWildcard : List Char → Option (Char × List Char)
  | [] => none
  | c :: rest => if c = '*' ∨ c = 'x' ∨ c = 'X' then some (c, rest) else none

def readOperator : List Char → Option Operator × List Char
  | '>' :: '=' :: rest => (some .greaterEq, rest)
  | '>' :: rest => (some .greater, rest)
  | '<' :: '=' :: rest => (some .lessEq, rest)
  | '<' :: rest => (some .less, rest)
  | '=' :: rest => (some .exact, rest)
  | '~' :: rest => (some .tilde, rest)
  | '^' :: rest => (some .caret, rest)
  | rest => (none, rest)

/-- A number after the first: absent, a wildcard, or given. -/
inductive Place
  | absent
  | any
  | given (n : Nat)

def Place.number? : Place → Option Nat
  | .given n => some n
  | _ => none

def readPlace (part before : VersionPart) (afterAny : Bool) (cs : List Char) :
    Except VersionFault (Place × VersionPart × List Char) :=
  match cs with
  | '.' :: rest =>
    match readWildcard rest with
    | some (_, rest) => .ok (.any, part, rest)
    | none =>
      if afterAny then .error .afterWildcard
      else do
        let (n, rest) ← readVersionNumber part rest
        return (.given n, part, rest)
  | _ => .ok (.absent, before, cs)

/-- An operator that is not written is a wildcard where a wildcard is written, else a caret. -/
def chooseOperator (written : Option Operator) (minor patch : Place) : Operator :=
  match written, minor, patch with
  | some op, _, _ => op
  | none, .any, _ => .wildcard
  | none, _, .any => .wildcard
  | none, _, _ => .caret

/-- Build metadata may be written after a full version, and says nothing. -/
def readComparator (cs : List Char) :
    Except VersionFault (Comparator × VersionPart × List Char) := do
  let (op, cs) := readOperator cs
  let (major, cs) ← readVersionNumber .major (trimSpaces cs)
  let (minor, last, cs) ← readPlace .minor .major false cs
  let (patch, last, cs) ← readPlace .patch last (minor matches .any) cs
  let (pre, last, cs) ←
    if patch matches .given _ then readMarkedRow '-' .pre last cs else .ok ([], last, cs)
  let (_, last, cs) ←
    if patch matches .given _ then readMarkedRow '+' .build last cs else .ok ([], last, cs)
  return ({ op := chooseOperator op minor patch, major, minor := minor.number?,
            patch := patch.number?, pre }, last, trimSpaces cs)

/-- A wildcard that stands where a comparator should is named as such. -/
def comparatorFault (cs : List Char) (fault : VersionFault) : VersionFault :=
  match readWildcard cs with
  | some (c, rest) =>
    match trimSpaces rest with
    | [] => .wildcardNotAlone c
    | ',' :: _ => .wildcardNotAlone c
    | _ => fault
  | none => fault

def readComparators : (room : Nat) → List Char → Except VersionFault (List Comparator)
  | 0, _ => .error .tooManyComparators
  | room + 1, cs =>
    match readComparator cs with
    | .error fault => .error (comparatorFault cs fault)
    | .ok (c, last, cs) =>
      match cs with
      | [] => .ok [c]
      | ',' :: rest => do
        let more ← readComparators room (trimSpaces rest)
        return c :: more
      | unexpected :: _ => .error (.expectedComma last unexpected)

def comparatorLimit : Nat := 32

namespace Requirement

def readStrict (cs : List Char) : Except VersionFault Requirement :=
  let cs := trimSpaces cs
  match readWildcard cs with
  | some (c, rest) =>
    match trimSpaces rest with
    | [] => .ok ⟨[]⟩
    | ',' :: _ => .error (.wildcardNotAlone c)
    | _ => .error .afterWildcard
  | none => (readComparators comparatorLimit cs).map Requirement.mk

end Requirement
end ClusterPackages
