import ClusterPackages.RepoError
import ClusterPackages.Resource.Repository
import ClusterPackages.Resource.Secret

/-!
How requests to a repository are authenticated. Resolving a specification may read secrets; what is
read, and in which order, is a plan that whoever runs it answers. A client is never anonymous
because something went wrong.
-/

namespace ClusterPackages

inductive SecretPlan (α : Type)
  | done (result : α)
  | read (name : String) (next : Except RepoError Secret → SecretPlan α)

namespace SecretPlan

def bind : SecretPlan α → (α → SecretPlan β) → SecretPlan β
  | done x, f => f x
  | read name next, f => read name fun s => (next s).bind f

instance : Monad SecretPlan := { pure := done, bind := bind }

/-- Runs a plan on what the secrets are, and counts the reads. -/
def run (secret : String → Except RepoError Secret) : SecretPlan α → α × Nat
  | done x => (x, 0)
  | read name next =>
    let (x, reads) := run secret (next (secret name))
    (x, reads + 1)

end SecretPlan

inductive Authenticator
  | anonymous
  | basic (username password : String)
  | bearer (token : String)
  deriving DecidableEq, Repr, Inhabited

namespace Authenticator

def header? : Authenticator → Option String
  | anonymous => none
  | basic username password =>
    let credentials := Text.encode (username.toList ++ ':' :: password.toList)
    some ("Basic " ++ String.ofList (Text.Base64.encode credentials))
  | bearer token => some ("Bearer " ++ token)

/-- What may be shown of an authenticator. -/
def shown : Authenticator → String
  | anonymous => "None"
  | basic username _ => "Basic(" ++ username ++ ":***)"
  | bearer _ => "Bearer(***)"

/-! ## Resolving -/

abbrev Resolution := ExceptT RepoError SecretPlan

structure Scope where
  repository : String
  «namespace» : String

def Scope.fail (scope : Scope) (reason : Cause) : Resolution α :=
  throw (.authConfig scope.repository reason)

def Scope.unreadable (scope : Scope) (name : String) (e : RepoError) : Cause :=
  match e.message? with
  | some m => .words ("could not get secret " ++ scope.namespace ++ "/" ++ name ++ ": " ++ m)
  | none => .foreign

/-- Reads a secret unless it is the one at hand. -/
def secret (scope : Scope) (atHand : Option Secret) (name : String) : Resolution Secret :=
  match atHand.filter (·.name == name) with
  | some s => pure s
  | none => do
    match ← ExceptT.lift (.read name .done) with
    | .ok s => pure s
    | .error e => scope.fail (scope.unreadable name e)

/-- One field of a specification: its own value unless that is empty, else the secret's. Returns
the secret last read too. -/
def field (scope : Scope) (atHand : Option Secret) (name : String) (inline : Option String)
    (ref : Option SecretKeyRef) : Resolution (String × Option Secret) :=
  match inline.filter (· != ""), ref with
  | some value, _ => pure (value, atHand)
  | none, none => scope.fail (.words (name ++ " is neither set nor referenced from a secret"))
  | none, some ref => do
    let s ← secret scope atHand ref.name
    match s.text ref.key with
    | .ok value => pure (value, some s)
    | .error lack => scope.fail (.words ("secret " ++ ref.name ++ " " ++ lack.message ref.key))

def resolveSpec (scope : Scope) (spec : AuthSpec) : Resolution Authenticator :=
  match spec.basic, spec.bearer with
  | some _, some _ => scope.fail (.words "basic and bearer auth are mutually exclusive")
  | some b, none => do
    let (username, atHand) ← field scope none "username" b.username b.usernameSecretRef
    let (password, _) ← field scope atHand "password" b.password b.passwordSecretRef
    return .basic username password
  | none, some b => do
    let (token, _) ← field scope none "token" b.token b.tokenSecretRef
    return .bearer token
  | none, none => pure .anonymous

def resolve (r : Repository) (secretNamespace : String) : SecretPlan (Except RepoError Authenticator) :=
  match r.spec.auth with
  | none => .done (.ok .anonymous)
  | some spec => (resolveSpec ⟨r.name, secretNamespace⟩ spec).run

end Authenticator
end ClusterPackages
