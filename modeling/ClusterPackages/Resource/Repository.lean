import ClusterPackages.Resource.Object

/-!
Repositories as the cluster knows them: where they are, how to authenticate, and which of them is
the default one.
-/

namespace ClusterPackages

structure SecretKeyRef where
  name : String := ""
  key : String := ""
  deriving DecidableEq, Repr

namespace SecretKeyRef

def fields : List (Field SecretKeyRef) :=
  [.mandatory "name" .text (·.name) (fun s x => { x with name := s }),
   .mandatory "key" .text (·.key) (fun s x => { x with key := s })]

def codec : Codec SecretKeyRef := .record .strict fields {}

end SecretKeyRef

structure BasicAuth where
  username : Option String := none
  usernameSecretRef : Option SecretKeyRef := none
  password : Option String := none
  passwordSecretRef : Option SecretKeyRef := none
  deriving DecidableEq, Repr

namespace BasicAuth

def fields : List (Field BasicAuth) :=
  [.optional "username" .text (·.username) (fun s x => { x with username := s }),
   .optional "usernameSecretRef" SecretKeyRef.codec (·.usernameSecretRef)
     (fun r x => { x with usernameSecretRef := r }),
   .optional "password" .text (·.password) (fun s x => { x with password := s }),
   .optional "passwordSecretRef" SecretKeyRef.codec (·.passwordSecretRef)
     (fun r x => { x with passwordSecretRef := r })]

def codec : Codec BasicAuth := .record .strict fields {}

end BasicAuth

structure BearerAuth where
  token : Option String := none
  tokenSecretRef : Option SecretKeyRef := none
  deriving DecidableEq, Repr

namespace BearerAuth

def fields : List (Field BearerAuth) :=
  [.optional "token" .text (·.token) (fun s x => { x with token := s }),
   .optional "tokenSecretRef" SecretKeyRef.codec (·.tokenSecretRef)
     (fun r x => { x with tokenSecretRef := r })]

def codec : Codec BearerAuth := .record .strict fields {}

end BearerAuth

/-- At most one of the two blocks makes sense. -/
structure AuthSpec where
  basic : Option BasicAuth := none
  bearer : Option BearerAuth := none
  deriving DecidableEq, Repr

namespace AuthSpec

def fields : List (Field AuthSpec) :=
  [.optional "basic" BasicAuth.codec (·.basic) (fun a x => { x with basic := a }),
   .optional "bearer" BearerAuth.codec (·.bearer) (fun a x => { x with bearer := a })]

def codec : Codec AuthSpec := .record .strict fields {}

end AuthSpec

structure RepositorySpec where
  url : String := ""
  auth : Option AuthSpec := none
  deriving DecidableEq, Repr

namespace RepositorySpec

def fields : List (Field RepositorySpec) :=
  [.mandatory "url" .text (·.url) (fun s x => { x with url := s }),
   .optional "auth" AuthSpec.codec (·.auth) (fun a x => { x with auth := a })]

def codec : Codec RepositorySpec := .record .strict fields {}

end RepositorySpec

structure RepositoryStatus where
  conditions : List Condition := []
  deriving DecidableEq, Repr

namespace RepositoryStatus

def fields : List (Field RepositoryStatus) :=
  [.omitIf List.isEmpty "conditions" (.list Condition.codec) (·.conditions)
     (fun xs x => { x with conditions := xs })]

def codec : Codec RepositoryStatus := .record .strict fields {}

end RepositoryStatus

abbrev Repository := ResourceObject RepositorySpec RepositoryStatus

namespace Repository

def codec : Codec Repository :=
  ResourceObject.codec "PackageRepository" RepositorySpec.codec RepositoryStatus.codec {}

def name (r : Repository) : String := r.metadata.anyName

/-- The annotation that marks the default repository. -/
def defaultMark : String := "packages.skiff.io/defaultRepository"

def markText : String := "true"

def isDefault (r : Repository) : Bool :=
  (r.metadata.annotations.bind (TextMap.get? defaultMark)) == some markText

def setDefault (value : Bool) (r : Repository) : Repository :=
  let annotations := r.metadata.annotations.getD []
  let annotations :=
    if value then annotations.insert defaultMark markText else annotations.erase defaultMark
  { r with metadata := { r.metadata with annotations := some annotations } }

end Repository
end ClusterPackages
