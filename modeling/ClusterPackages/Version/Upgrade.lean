import ClusterPackages.Version.Parser

/-!
When a version is an upgrade of another. Precedence decides; versions of equal precedence are
told apart by their build metadata, as numbers where both are numbers. Texts that are no versions
are an upgrade of every other text.
-/

namespace ClusterPackages

/-- The number that build metadata denotes, if it is one number of sixty-four bits. -/
def buildNumber? : List Identifier → Option Nat
  | [id] =>
    if id ≠ [] ∧ id.isNumeric ∧ Text.decimal id < versionNumberLimit then some (Text.decimal id)
    else none
  | _ => none

def isBuildUpgrade (installed latest : List Identifier) : Bool :=
  if installed = latest ∨ latest = [] then false
  else if installed = [] then true
  else match buildNumber? installed, buildNumber? latest with
    | some i, some l => i < l
    | _, _ => true

def Version.isUpgrade (installed latest : Version) : Bool :=
  match latest.comparePrecedence installed with
  | .gt => true
  | .eq => isBuildUpgrade installed.build latest.build
  | .lt => false

def isUpgradable (installed latest : String) : Bool :=
  match Version.parse? installed, Version.parse? latest with
  | some i, some l => i.isUpgrade l
  | _, _ => installed != latest

/-- The higher of two texts; the empty text never wins over another. -/
def maxVersion (current candidate : String) : String :=
  if candidate = "" then current
  else if current = "" ∨ isUpgradable current candidate then candidate
  else current

end ClusterPackages
