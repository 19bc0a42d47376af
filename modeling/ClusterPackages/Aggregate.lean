import ClusterPackages.Clientset
import ClusterPackages.Version.Upgrade

/-!
All repositories at once: the merged catalog, the newest version of a package, and who offers it.
A repository that fails is left out, and its error is kept beside the result.
-/

namespace ClusterPackages.Aggregate

open Clientset

def byName (rs : List Repository) : List Repository := rs.mergeSort fun a b => a.name ≤ b.name

abbrev Answers (α : Type) := List (Repository × Except RepoError α)

def askAll (env : Surroundings) (operation : RepoClient → Call α) :
    List Repository → Lookup (Answers α)
  | [] => pure []
  | r :: rs => do
    let answer ← call (← forRepo env r) operation
    let answers ← askAll env operation rs
    pure ((r, answer) :: answers)

/-- Calls every repository, in an order made from that of their names. -/
def ask (env : Surroundings) (order : List Repository → List Repository)
    (operation : RepoClient → Call α) : Lookup (Except RepoError (Answers α)) := do
  match ← listRepositories env with
  | .error e => pure (.error e)
  | .ok rs => .ok <$> askAll env operation (order (byName rs))

def failures (answers : Answers α) : List RepoError :=
  answers.filterMap fun (_, answer) => match answer with
    | .ok _ => none
    | .error e => some e

/-! ## The merged catalog -/

/-- Takes in an entry of a repository whose name comes before all those taken in. The default
repository never decides what is shown of a package that another one offers. -/
def addEntry (r : Repository) (merged : TextMap MergedEntry) (e : CatalogEntry) :
    TextMap MergedEntry :=
  match merged.get? e.name with
  | none => merged.insert e.name { entry := e, repos := [r.name] }
  | some m =>
    let shown := if r.isDefault then m.entry else e
    let latest := maxVersion m.entry.latestVersion e.latestVersion
    merged.insert e.name
      { entry := { shown with latestVersion := latest }, repos := r.name :: m.repos }

def addAnswer (merged : TextMap MergedEntry) (answer : Repository × Except RepoError Catalog) :
    TextMap MergedEntry :=
  match answer.2 with
  | .ok catalog => catalog.packages.foldl (addEntry answer.1) merged
  | .error _ => merged

/-- Merges catalogs that come in descending order of the repositories' names. -/
def merge (answers : Answers Catalog) : PartialResult MergedCatalog where
  value := { packages := List.map Prod.snd (answers.foldl addAnswer []) }
  error := RepoError.combine (failures answers)

def mergedCatalog (env : Surroundings) :
    Lookup (Except RepoError (PartialResult MergedCatalog)) := do
  return (← ask env List.reverse (RepoClient.catalog env.web)).map merge

/-! ## The newest version -/

/-- A repository without a version index does not offer the package; any other failure counts. -/
def newest (name : String) (answers : Answers VersionIndex) : Except RepoError String :=
  match RepoError.combine ((failures answers).filter fun e => !e.isNotFound) with
  | some e => .error e
  | none =>
    match answers.filterMap fun (_, answer) => answer.toOption with
    | [] => .error (.packageNotFound name)
    | found => .ok ((found.map (·.latestVersion)).foldl maxVersion "")

def latestVersion (env : Surroundings) (name : String) : Lookup (Except RepoError String) := do
  return (← ask env id fun c => c.versionIndex env.web name).bind (newest name)

/-! ## Who offers a package -/

def offering (name : String) (answers : Answers Catalog) :
    Except RepoError (PartialResult (List Repository)) :=
  let found := answers.filterMap fun (r, answer) => match answer with
    | .ok catalog => if (catalog.get? name).isSome then some r else none
    | .error _ => none
  match RepoError.combine (failures answers), found with
  | none, rs => .ok (.complete rs)
  | some e, [] => .error e
  | some e, rs => .ok { value := rs, error := some (.partialResult e) }

def repositoriesOffering (env : Surroundings) (name : String) :
    Lookup (Except RepoError (PartialResult (List Repository))) := do
  return (← ask env id (RepoClient.catalog env.web)).bind (offering name)

end ClusterPackages.Aggregate
