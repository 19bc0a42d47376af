import ClusterPackages.Validation

/-!
Planning updates. The catalog of a package's repository decides its target version; a target whose
manifest conflicts with what is installed is reported and never applied. Planning changes nothing
in the cluster.
-/

namespace ClusterPackages

structure UpdateItem where
  package : InstalledPackage
  /-- Empty if the package is up to date. -/
  version : String
  deriving DecidableEq, Repr

def UpdateItem.isRequired (i : UpdateItem) : Bool := i.version != ""

structure ConflictItem where
  item : UpdateItem
  conflicts : List Conflict
  deriving DecidableEq, Repr

structure Transaction where
  items : List UpdateItem := []
  conflictItems : List ConflictItem := []
  /-- What has to be installed too, each once. -/
  requirements : List Prerequisite := []
  deriving DecidableEq, Repr

namespace Transaction

/-- No item changes a version. -/
def isEmpty (t : Transaction) : Bool := t.items.all fun i => !i.isRequired

def addNew (xs : List Prerequisite) (x : Prerequisite) : List Prerequisite :=
  if xs.contains x then xs else xs ++ [x]

def add (t : Transaction) (item : UpdateItem) (v : Validation) : Transaction :=
  if v.hasConflicts then
    { t with conflictItems := t.conflictItems ++ [{ item, conflicts := v.conflicts }] }
  else
    { t with items := t.items ++ [item], requirements := v.requirements.foldl addNew t.requirements }

def addUpToDate (t : Transaction) (p : InstalledPackage) : Transaction :=
  { t with items := t.items ++ [{ package := p, version := "" }] }

def repositoryLabel (p : InstalledPackage) : String :=
  if p.repositoryName = "" then "default" else p.repositoryName

def addPackage (env : Surroundings) (validate : DependencyValidator) (isExplicit : Bool)
    (t : Transaction) (p : InstalledPackage) : Plan Transaction := do
  let repo ← Plan.onRepos (Clientset.forPackage env p)
  let catalog ← Plan.onClient (Clientset.call repo (RepoClient.catalog env.web))
  match catalog.get? p.packageName with
  | none => throw (.packageNotFoundInIndex p.packageName (repositoryLabel p))
  | some entry =>
    let version := entry.latestVersion
    if isUpgradable p.desiredVersion version then
      let manifest ← Plan.onClient
        (Clientset.call repo fun c => c.manifest env.web p.packageName version)
      let v ← validate manifest version
      pure (t.add { package := p, version } v)
    else if isExplicit then pure (t.addUpToDate p)
    else pure t

def addPackages (env : Surroundings) (validate : DependencyValidator) (isExplicit : Bool) :
    Transaction → List InstalledPackage → Plan Transaction
  | t, [] => pure t
  | t, p :: ps => do addPackages env validate isExplicit (← addPackage env validate isExplicit t p) ps

def selected (found : List (Except ClusterError (List InstalledPackage))) :
    Except ClusterError (List InstalledPackage) :=
  let errors := found.filterMap fun x => match x with
    | .ok _ => none
    | .error e => some e
  match ClusterError.combine errors with
  | some e => .error e
  | none => .ok (found.filterMap Except.toOption).flatten

/-- The update of every selected package to what its repository shows as latest. -/
def prepare (env : Surroundings) (source : PackageSource) (validate : DependencyValidator)
    (selections : List PackageSelection) : Plan Transaction := do
  let packages ← Plan.answer (selected (← PackageSelection.getAll source selections))
  addPackages env validate (selections.any PackageSelection.isExplicit) {} packages

/-- The update of one package to a given version. Nobody is asked if that is not newer. -/
def prepareFor (env : Surroundings) (validate : DependencyValidator) (p : InstalledPackage)
    (version : String) : Plan Transaction := do
  if !isUpgradable p.desiredVersion version then
    throw (.downgradeOrEqual p.desiredVersion version)
  else
    let repo ← Plan.onRepos (Clientset.forPackage env p)
    let manifest ← Plan.onClient
      (Clientset.call repo fun c => c.manifest env.web p.packageName version)
    let v ← validate manifest version
    pure (Transaction.add {} { package := p, version } v)

end Transaction
end ClusterPackages
