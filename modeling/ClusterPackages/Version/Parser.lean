import ClusterPackages.Version.Basic
import ClusterPackages.Version.Error

/-!
Reading versions. `Version.readStrict` takes the three-number form only; `Version.parse` also
takes surrounding white space, one leading `v` or `V`, and cores of one or two numbers.
-/

namespace ClusterPackages

def versionNumberLimit : Nat := Nat.pow 2 64

def readVersionNumber (part : VersionPart) (cs : List Char) :
    Except VersionFault (Nat × List Char) :=
  let digits := cs.takeWhile Text.isDigit
  let rest := cs.dropWhile Text.isDigit
  match digits with
  | [] =>
    match rest with
    | [] => .error (.unexpectedEnd part)
    | c :: _ => .error (.unexpectedChar part c)
  | d :: more =>
    if d = '0' ∧ more ≠ [] then .error (.leadingZero part)
    else if Text.decimal digits < versionNumberLimit then .ok (Text.decimal digits, rest)
    else .error (.overflow part)

def readDot (part : VersionPart) : List Char → Except VersionFault (List Char)
  | [] => .error (.unexpectedEnd part)
  | c :: rest => if c = '.' then .ok rest else .error (.unexpectedCharAfter part c)

def isIdentifierChar (c : Char) : Bool := Text.isDigit c || Text.isAsciiLetter c || c == '-'

/-- The first fault of a dotted row. Only pre-releases forbid leading zeros in numbers. -/
def checkIdentifiers (part : VersionPart) : List Identifier → Except VersionFault Unit
  | [] => .ok ()
  | id :: ids =>
    if id = [] then .error (.emptySegment part)
    else if part = .pre ∧ id.isNumeric ∧ 1 < id.length ∧ id.head? = some '0' then
      .error (.leadingZero part)
    else checkIdentifiers part ids

def readIdentifiers (part : VersionPart) (cs : List Char) :
    Except VersionFault (List Identifier × List Char) := do
  let inRow := fun c => isIdentifierChar c || c == '.'
  let ids := Text.splitOn '.' (cs.takeWhile inRow)
  checkIdentifiers part ids
  return (ids, cs.dropWhile inRow)

def readMarkedRow (mark : Char) (part before : VersionPart) (cs : List Char) :
    Except VersionFault (List Identifier × VersionPart × List Char) :=
  match cs with
  | [] => .ok ([], before, [])
  | c :: rest =>
    if c = mark then do
      let (ids, rest) ← readIdentifiers part rest
      return (ids, part, rest)
    else .ok ([], before, cs)

namespace Version

def readStrict (cs : List Char) : Except VersionFault Version := do
  if cs = [] then throw .empty
  let (major, cs) ← readVersionNumber .major cs
  let cs ← readDot .major cs
  let (minor, cs) ← readVersionNumber .minor cs
  let cs ← readDot .minor cs
  let (patch, cs) ← readVersionNumber .patch cs
  let (pre, last, cs) ← readMarkedRow '-' .pre .patch cs
  let (build, last, cs) ← readMarkedRow '+' .build last cs
  match cs with
  | [] => return { major, minor, patch, pre, build }
  | c :: _ => throw (.unexpectedCharAfter last c)

/-- Drops at most one leading `v` or `V`. -/
def dropV : List Char → List Char
  | [] => []
  | c :: cs => if c = 'v' ∨ c = 'V' then cs else c :: cs

/-- Fills a core of one or two numbers up with zeros; `none` if the core is none of these. -/
def padCore? (cs : List Char) : Option (List Char) :=
  let inCore := fun c => c != '-' && c != '+'
  let core := cs.takeWhile inCore
  let parts := Text.splitOn '.' core
  if parts.all (fun p => p != [] && p.all Text.isDigit) && parts.length < 3 then
    some (core ++ (List.replicate (3 - parts.length) ['.', '0']).flatten ++ cs.dropWhile inCore)
  else none

/-- The reading of a text without blanks around it and without its `v`. A text that only padding
could save, and does not, keeps the fault of the unpadded reading. -/
def readLenient (cs : List Char) : Except VersionFault Version :=
  match readStrict cs with
  | .ok v => .ok v
  | .error fault =>
    match (padCore? cs).map readStrict with
    | some (.ok v) => .ok v
    | _ => .error fault

def parse (input : String) : Except VersionFault Version :=
  readLenient (dropV (Text.trim input.toList))

def parse? (input : String) : Option Version := (parse input).toOption

end Version
end ClusterPackages
