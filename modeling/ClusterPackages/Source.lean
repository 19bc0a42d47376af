import ClusterPackages.RepoError
import ClusterPackages.Resource.Repository
import ClusterPackages.Resource.Secret

/-!
Where repositories and secrets are looked up: what a cluster answers, and a cluster kept in memory.
-/

namespace ClusterPackages

/-- What lookups answer as long as nothing changes. -/
structure RepositorySource where
  repository : String → Except RepoError Repository
  repositories : Except RepoError (List Repository)
  secret : (name «namespace» : String) → Except RepoError Secret

structure LookupCounts where
  repositories : Nat := 0
  lists : Nat := 0
  secrets : Nat := 0
  deriving DecidableEq, Repr

structure Inventory where
  repositories : TextMap Repository := []
  /-- By namespace, then by name. -/
  secrets : TextMap (TextMap Secret) := []

namespace Inventory

def putRepository (i : Inventory) (r : Repository) : Inventory :=
  { i with repositories := i.repositories.insert r.name r }

def removeRepository (i : Inventory) (name : String) : Inventory :=
  { i with repositories := i.repositories.erase name }

def putSecret (i : Inventory) (s : Secret) : Inventory :=
  let ns := s.metadata.namespace.getD ""
  let inside := ((i.secrets.get? ns).getD []).insert s.name s
  { i with secrets := i.secrets.insert ns inside }

def secret (i : Inventory) (name ns : String) : Except RepoError Secret :=
  match (i.secrets.get? ns).bind (TextMap.get? name) with
  | some s => .ok s
  | none => .error (.cluster (.words ("secret " ++ ns ++ "/" ++ name ++ " not found")))

def toSource (i : Inventory) : RepositorySource where
  repository name :=
    match i.repositories.get? name with
    | some r => .ok r
    | none => .error (.repositoryNotFound name)
  repositories := .ok (List.map Prod.snd i.repositories)
  secret := i.secret

end Inventory
end ClusterPackages
