import ClusterPackages.Document

/-!
What can go wrong between a repository and its reader. An error keeps its cause; causes that come
from the network or from a document reader have words of their own, which are not part of it.
-/

namespace ClusterPackages

inductive Cause
  | words (text : String)
  | content (fault : Fault)
  /-- Worded by whoever met it. -/
  | foreign
  deriving DecidableEq, Repr, Inhabited

namespace Cause

def text? : Cause → Option String
  | .words text => some text
  | .content _ | .foreign => none

def ofDocument : Document.DecodeFault → Cause
  | .encoding f => .words ("Invalid UTF-8: " ++ f.message)
  | .content f => .content f

end Cause

inductive RepoError
  | transport (url : String) (cause : Cause)
  | status (url : String) (code : Nat)
  | decode (url : String) (cause : Cause)
  | unacceptableMediaType (url mediaType : String)
  | authConfig (repository : String) (cause : Cause)
  | invalidUrl (url reason : String)
  | invalidConfig (reason : String)
  | repositoryNotFound (name : String)
  | defaultRepositoryNotFound
  | multipleDefaultRepositories (names : List String)
  | packageNotFound (name : String)
  | cluster (cause : Cause)
  | multiple (errors : List RepoError)
  /-- There is a result, and this is what it lacks. -/
  | partialResult (inner : RepoError)
  | io (reason : String)
  | serialization (cause : Cause)
  deriving Repr, Inhabited

namespace RepoError

mutual
/-- The text of an error; nothing if it would hold foreign words. -/
def message? : RepoError → Option String
  | .transport url cause => cause.text?.map fun t => "Request to " ++ url ++ " failed: " ++ t
  | .status url code =>
    some ("Request to " ++ url ++ " failed with HTTP status " ++ toString code)
  | .decode url cause =>
    cause.text?.map fun t => "Could not decode response from " ++ url ++ ": " ++ t
  | .unacceptableMediaType url mediaType =>
    some ("Unacceptable media type " ++ mediaType ++ " from " ++ url)
  | .authConfig repository cause =>
    cause.text?.map fun t =>
      "Invalid auth configuration for repository " ++ repository ++ ": " ++ t
  | .invalidUrl url reason => some ("Invalid repository URL: " ++ url ++ " - " ++ reason)
  | .invalidConfig reason => some ("Invalid configuration: " ++ reason)
  | .repositoryNotFound name => some ("Repository not found: " ++ name)
  | .defaultRepositoryNotFound => some "Default repository not found"
  | .multipleDefaultRepositories names =>
    some ("Multiple default repositories: " ++ ", ".intercalate names)
  | .packageNotFound name => some ("Package " ++ name ++ " is not offered by any repository")
  | .cluster cause => cause.text?.map fun t => "Cluster error: " ++ t
  | .multiple errors => (messages? errors).map ("; ".intercalate ·)
  | .partialResult inner => inner.message?.map fun t => "Partial result: " ++ t
  | .io reason => some ("IO error: " ++ reason)
  | .serialization cause => cause.text?.map fun t => "Serialization error: " ++ t

def messages? : List RepoError → Option (List String)
  | [] => some []
  | e :: es => do return (← e.message?) :: (← messages? es)
end

/-- The answer was "not found", perhaps beside a usable result. -/
def isNotFound : RepoError → Bool
  | .status _ code => code == 404
  | .partialResult inner => inner.isNotFound
  | _ => false

def isPartial : RepoError → Bool
  | .partialResult _ => true
  | _ => false

/-- One error for several, none for none; a single one stays as it is. -/
def combine : List RepoError → Option RepoError
  | [] => none
  | [e] => some e
  | es => some (.multiple es)

end RepoError

structure PartialResult (α : Type) where
  value : α
  error : Option RepoError
  deriving Repr

namespace PartialResult

def complete (x : α) : PartialResult α := ⟨x, none⟩

def map (f : α → β) (r : PartialResult α) : PartialResult β := ⟨f r.value, r.error⟩

def isComplete (r : PartialResult α) : Bool := r.error.isNone

def toExcept (r : PartialResult α) : Except RepoError α :=
  match r.error with
  | some e => .error e
  | none => .ok r.value

end PartialResult

def decodeDocument (c : Codec α) (url : String) (body : Text.Bytes) : Except RepoError α :=
  (Document.decodeBytes c body).mapError fun f => .decode url (Cause.ofDocument f)

end ClusterPackages
