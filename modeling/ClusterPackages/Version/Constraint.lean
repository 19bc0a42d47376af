import ClusterPackages.Version.RequirementParser
import ClusterPackages.Version.Upgrade

/-!
Constraints as packages declare them: requirements in which each version may carry a `v`, and in
which blanks may stand around commas and operators.
-/

namespace ClusterPackages

/-- What may stand before a version: anything but a letter, a digit or a star. -/
def isOperatorChar (c : Char) : Bool := !(Text.isDigit c || Text.isAsciiLetter c || c == '*')

def normalizeComparator (cs : List Char) : List Char :=
  let cs := Text.trim cs
  Text.trim (cs.takeWhile isOperatorChar) ++ Version.dropV (cs.dropWhile isOperatorChar)

def normalizeConstraint (cs : List Char) : List Char :=
  Text.join [',', ' '] ((Text.splitOn ',' cs).map normalizeComparator)

inductive ConstraintError
  | invalidVersion (version : String) (fault : VersionFault)
  | invalidConstraint (constraint : String) (fault : VersionFault)
  | violation (version constraint : String) (unmet : List String)
  deriving DecidableEq, Repr

def ConstraintError.message : ConstraintError → String
  | .invalidVersion version fault => "Invalid version '" ++ version ++ "': " ++ fault.message
  | .invalidConstraint constraint fault =>
    "Invalid version constraint '" ++ constraint ++ "': " ++ fault.message
  | .violation version constraint unmet =>
    "Version " ++ version ++ " does not satisfy " ++ constraint ++ ": " ++ ", ".intercalate unmet

def parseVersion (version : String) : Except ConstraintError Version :=
  (Version.parse version).mapError (.invalidVersion version)

def parseConstraint (constraint : String) : Except ConstraintError Requirement :=
  (Requirement.readStrict (normalizeConstraint constraint.toList)).mapError
    (.invalidConstraint constraint)

/-- The texts of the comparators that reject `v` on their own; the whole requirement if none does. -/
def Requirement.unmet (r : Requirement) (v : Version) : List String :=
  match r.comparators.filter (fun c => !c.isMetBy v) with
  | [] => [r.text]
  | cs => cs.map Comparator.text

/-- An invalid version is reported before an invalid constraint. -/
def validateConstraint (version constraint : String) : Except ConstraintError Unit := do
  let v ← parseVersion version
  let r ← parseConstraint constraint
  if r.isMetBy v then return ()
  else throw (.violation version constraint (r.unmet v))

end ClusterPackages
