import ClusterPackages.Selection
import ClusterPackages.Version.Upgrade

/-!
Dependencies of a manifest, held against the packages of the cluster: which are missing and can be
installed, and which are in the way.
-/

namespace ClusterPackages

inductive ValidationStatus
  | ok
  /-- What is missing can be installed. -/
  | resolvable
  | conflict
  deriving DecidableEq, Repr, Inhabited

structure PackageVersion where
  name : String
  version : String
  deriving DecidableEq, Repr

structure Prerequisite where
  package : PackageVersion
  /-- Needed by a dependency rather than by the package itself. -/
  isTransitive : Bool
  deriving DecidableEq, Repr

structure Conflict where
  actual : PackageVersion
  required : PackageVersion
  cause : Option String
  deriving DecidableEq, Repr

def Conflict.text (c : Conflict) : String :=
  c.required.name ++ " (required: " ++ c.required.version ++ ", actual: " ++ c.actual.version ++ ")"

structure Validation where
  status : ValidationStatus := .ok
  requirements : List Prerequisite := []
  conflicts : List Conflict := []
  deriving DecidableEq, Repr

namespace Validation

def hasConflicts (v : Validation) : Bool := !v.conflicts.isEmpty

def statusOf (requirements : List Prerequisite) (conflicts : List Conflict) : ValidationStatus :=
  if !conflicts.isEmpty then .conflict
  else if !requirements.isEmpty then .resolvable
  else .ok

def ofParts (requirements : List Prerequisite) (conflicts : List Conflict) : Validation :=
  { status := statusOf requirements conflicts, requirements, conflicts }

end Validation

/-- Whatever can validate a manifest at a version. -/
abbrev DependencyValidator := Manifest → (version : String) → Plan Validation

namespace DependencyValidator

/-- The versions of a dependency that its repository offers; the one of the catalog if there is no
version index. -/
def candidates (env : Surroundings) (repo : ClientRef) (name : String) : Plan (List String) := do
  match ← Plan.onRepos (Clientset.call repo fun c => c.versionIndex env.web name) with
  | .ok index => pure (index.versions.map (·.version))
  | .error e =>
    if e.isNotFound then
      let latest ← Plan.onClient (Clientset.call repo fun c => c.latestVersion env.web name)
      pure [latest]
    else throw (.repo e)

def isAcceptable (constraint version : String) : Bool :=
  version != "" && (constraint == "" || (validateConstraint version constraint).toBool)

def best? (constraint : String) (versions : List String) : Option String :=
  let best := (versions.filter (isAcceptable constraint)).foldl maxVersion ""
  if best = "" then none else some best

def resolve (env : Surroundings) (repo : ClientRef) (d : Dependency) : Plan (Option String) :=
  return best? d.version (← candidates env repo d.name)

def installedConflict? (d : Dependency) (installed : InstalledPackage) : Option Conflict :=
  if d.version = "" then none
  else match validateConstraint installed.desiredVersion d.version with
    | .ok () => none
    | .error e => some
        { actual := ⟨d.name, installed.desiredVersion⟩, required := ⟨d.name, d.version⟩,
          cause := some e.message }

def unavailable (d : Dependency) : Conflict :=
  { actual := ⟨d.name, ""⟩, required := ⟨d.name, d.version⟩,
    cause := some "no available version satisfies the constraint" }

/-- What one dependency adds to the requirements or to the conflicts. -/
def check (env : Surroundings) (source : PackageSource) (repo : ClientRef) (d : Dependency) :
    Plan (Option Prerequisite × Option Conflict) := do
  Plan.countGet
  match source.clusterPackage d.name with
  | .ok installed => pure (none, installedConflict? d installed)
  | .error e =>
    if e.isNotFound then
      match ← resolve env repo d with
      | some version => pure (some { package := ⟨d.name, version⟩, isTransitive := false }, none)
      | none => pure (none, some (unavailable d))
    else throw e

def checkAll (env : Surroundings) (source : PackageSource) (repo : ClientRef) :
    List Dependency → Plan (List (Option Prerequisite × Option Conflict))
  | [] => pure []
  | d :: ds => do
    let finding ← check env source repo d
    let findings ← checkAll env source repo ds
    pure (finding :: findings)

/-- Validates against the packages of the cluster and the default repository. -/
def ofCluster (env : Surroundings) (source : PackageSource) : DependencyValidator :=
  fun manifest _ => do
    if manifest.dependencies.isEmpty then pure {}
    else
      let repo ← Plan.onRepos (Clientset.forDefault env)
      let findings ← checkAll env source repo manifest.dependencies
      pure (.ofParts (findings.filterMap Prod.fst) (findings.filterMap Prod.snd))

end DependencyValidator
end ClusterPackages
