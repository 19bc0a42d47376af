import ClusterPackages.RepoError
import ClusterPackages.Resource.Package
import ClusterPackages.Text.Quoted
import ClusterPackages.Version.Constraint

/-!
What can go wrong between a cluster and whoever selects, validates and updates packages in it.
-/

namespace ClusterPackages

structure ApiFailure where
  status : String := ""
  message : String := ""
  reason : String := ""
  code : Nat := 0
  deriving DecidableEq, Repr, Inhabited

namespace ApiFailure

/-- Its parts are shown once for readers and once in full. -/
def text (f : ApiFailure) : String :=
  "ApiError: " ++ f.message ++ ": " ++ f.reason ++ " (ErrorResponse \x7b status: " ++
    Text.quoted f.status ++ ", message: " ++ Text.quoted f.message ++ ", reason: " ++ Text.quoted f.reason ++
      ", code: " ++ toString f.code ++ " \x7d)"

def toRepoError (f : ApiFailure) : RepoError := .cluster (.words f.text)

end ApiFailure

inductive ClusterError
  | api (failure : ApiFailure)
  | apiDecode
  /-- There was no request, or no answer. -/
  | apiOther
  | repo (source : RepoError)
  | packageNotFound (kind : PackageKind) (name : String) («namespace» : Option String)
  | packageNotFoundInIndex (name repository : String)
  | downgradeOrEqual (installed requested : String)
  | notReady (name reason message : String)
  | watchClosed (name : String)
  | updateFailed (name : String) (source : ClusterError)
  | validation (reason : Cause)
  | multiple (errors : List ClusterError)
  | serialization (cause : Cause)
  deriving Repr, Inhabited

namespace ClusterError

mutual
/-- The text of an error; nothing if it would hold foreign words. -/
def message? : ClusterError → Option String
  | .api f => some ("Kubernetes API error: " ++ f.text)
  | .apiDecode | .apiOther => none
  | .repo source => source.message?
  | .packageNotFound kind name ns =>
    some (kind.text ++ " '" ++ name ++ "' not found" ++
      match ns with
      | some ns => " in namespace '" ++ ns ++ "'"
      | none => "")
  | .packageNotFoundInIndex name repository =>
    some ("package " ++ name ++ " not found in index of repository '" ++ repository ++ "'")
  | .downgradeOrEqual installed requested =>
    some ("can't update to downgraded or equal version (" ++ requested ++ " is not newer than " ++
      installed ++ ")")
  | .notReady name reason message =>
    some ("package " ++ name ++ " is not ready (reason " ++ reason ++ "): " ++ message)
  | .watchClosed name => some ("watch closed unexpectedly while waiting for " ++ name)
  | .updateFailed name source =>
    source.message?.map fun t => "could not update package " ++ name ++ ": " ++ t
  | .validation reason => reason.text?.map fun t => "dependency validation failed: " ++ t
  | .multiple errors => (messages? errors).map ("; ".intercalate ·)
  | .serialization cause => cause.text?.map fun t => "serialization error: " ++ t

def messages? : List ClusterError → Option (List String)
  | [] => some []
  | e :: es => do return (← e.message?) :: (← messages? es)
end

def isNotFound : ClusterError → Bool
  | .api f => f.code == 404
  | .packageNotFound .. => true
  | _ => false

def isConflict : ClusterError → Bool
  | .api f => f.code == 409
  | _ => false

/-- One error for several, none for none; a single one stays as it is. -/
def combine : List ClusterError → Option ClusterError
  | [] => none
  | [e] => some e
  | es => some (.multiple es)

def ofConstraint (e : ConstraintError) : ClusterError := .validation (.words e.message)

end ClusterError
end ClusterPackages
