import ClusterPackages.RepoClient
import ClusterPackages.Resource.Package
import ClusterPackages.Settings
import ClusterPackages.Source

/-!
One client for each repository. A client is kept as long as the specification it was built from
stays the same. A lookup never fails: what went wrong is what every call on its client returns.
-/

namespace ClusterPackages

/-- What client sets work with; none of it changes while they do. -/
structure Surroundings where
  settings : Settings
  source : RepositorySource
  web : Web

/-- A client with its number among all that were built. -/
structure NumberedClient where
  number : Nat
  client : RepoClient
  deriving DecidableEq, Repr

inductive ClientRef
  | built (client : NumberedClient)
  /-- Stands in for a client that cannot be had. -/
  | failing (error : RepoError)
  deriving Repr

structure ClientEntry where
  client : NumberedClient
  spec : RepositorySpec
  deriving DecidableEq, Repr

structure Clientset where
  entries : TextMap ClientEntry := []
  /-- The catalog that each client keeps, by the client's number. -/
  catalogs : List (Option Catalog) := []
  lookups : LookupCounts := {}
  requests : List Request := []
  deriving Repr

namespace Clientset

abbrev Lookup := StateM Clientset

/-! ## Lookups in the cluster -/

def getRepository (env : Surroundings) (name : String) : Lookup (Except RepoError Repository) := do
  modify fun s => { s with lookups.repositories := s.lookups.repositories + 1 }
  pure (env.source.repository name)

def listRepositories (env : Surroundings) : Lookup (Except RepoError (List Repository)) := do
  modify fun s => { s with lookups.lists := s.lookups.lists + 1 }
  pure env.source.repositories

def countSecrets (n : Nat) : Lookup Unit :=
  modify fun s => { s with lookups.secrets := s.lookups.secrets + n }

def authPlan (env : Surroundings) (r : Repository) : SecretPlan (Except RepoError Authenticator) :=
  Authenticator.resolve r env.settings.secretNamespace

def secretOf (env : Surroundings) (name : String) : Except RepoError Secret :=
  env.source.secret name env.settings.secretNamespace

/-! ## The steps of a lookup -/

def cachedFor (name : String) (spec : RepositorySpec) : Lookup (Option NumberedClient) := do
  match (← get).entries.get? name with
  | some e => pure (if e.spec = spec then some e.client else none)
  | none => pure none

def recentlyChecked (env : Surroundings) (name : String) : Lookup (Option NumberedClient) := do
  if env.settings.trustsClients then pure (((← get).entries.get? name).map (·.client))
  else pure none

def clientWith (env : Surroundings) (r : Repository) (auth : Except RepoError Authenticator) :
    Except RepoError RepoClient := do
  RepoClient.create r.spec.url (← auth) env.settings.maxCacheAge

def build (env : Surroundings) (r : Repository) : Lookup (Except RepoError RepoClient) := do
  let (auth, reads) := (authPlan env r).run (secretOf env)
  countSecrets reads
  pure (clientWith env r auth)

/-- Takes in what was built, unless a client for the same specification came first. A failure is
not kept, and neither is the client that it should have replaced. -/
def takeIn (r : Repository) (result : Except RepoError RepoClient) : Lookup ClientRef := do
  match ← cachedFor r.name r.spec with
  | some c => pure (.built c)
  | none =>
    let s ← get
    match result with
    | .ok client =>
      let c : NumberedClient := { number := s.catalogs.length, client }
      set { s with
        entries := s.entries.insert r.name { client := c, spec := r.spec }
        catalogs := s.catalogs ++ [none] }
      pure (.built c)
    | .error e =>
      set { s with entries := s.entries.erase r.name }
      pure (.failing e)

/-! ## Lookups -/

/-- The client of a repository, rebuilt only if its specification changed. -/
def forRepo (env : Surroundings) (r : Repository) : Lookup ClientRef := do
  match ← cachedFor r.name r.spec with
  | some c => pure (.built c)
  | none => do takeIn r (← build env r)

def theDefault (repositories : List Repository) : Except RepoError Repository :=
  match repositories.filter Repository.isDefault with
  | [] => .error .defaultRepositoryNotFound
  | [r] => .ok r
  | rs => .error (.multipleDefaultRepositories ((rs.map Repository.name).mergeSort (· ≤ ·)))

def defaultRepository (env : Surroundings) : Lookup (Except RepoError Repository) := do
  match ← listRepositories env with
  | .ok rs => pure (theDefault rs)
  | .error e => pure (.error e)

def forDefault (env : Surroundings) : Lookup ClientRef := do
  match ← defaultRepository env with
  | .ok r => forRepo env r
  | .error e => pure (.failing e)

/-- The client of a repository by name; an empty name means the default repository. -/
def forName (env : Surroundings) (name : String) : Lookup ClientRef := do
  if name = "" then forDefault env
  else match ← recentlyChecked env name with
    | some c => pure (.built c)
    | none =>
      match ← getRepository env name with
      | .ok r => forRepo env r
      | .error e => pure (.failing e)

def forPackage (env : Surroundings) (p : InstalledPackage) : Lookup ClientRef :=
  forName env p.repositoryName

/-! ## Calls -/

/-- Makes a call on a client; a stand-in answers each with the error it stands for. -/
def call (ref : ClientRef) (operation : RepoClient → Call α) : Lookup (Except RepoError α) := do
  match ref with
  | .failing e => pure (.error e)
  | .built c =>
    let s ← get
    let (result, t) := (operation c.client).run
      { catalog := (s.catalogs[c.number]?).join, requests := s.requests }
    set { s with catalogs := s.catalogs.set c.number t.catalog, requests := t.requests }
    pure result

end Clientset
end ClusterPackages
