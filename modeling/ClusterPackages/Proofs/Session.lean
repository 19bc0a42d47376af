import ClusterPackages.Aggregate
import ClusterPackages.Proofs.CoherentPlan

/-! Sessions: operations on repositories one after the other, while others write the packages of the
cluster. `Operation.run` makes an operation with whatever a client set keeps. `Operation.afresh` is
what the operation answers when every client is built and every document is fetched at the moment
it is needed, so that nothing is kept at all. -/

namespace ClusterPackages

open Clientset

/-! ## Operations -/

/-- The calls that a client takes, by the type of their results. -/
inductive RepoClient.Method : Type → Type
  | catalog : Method Catalog
  | versionIndex (name : String) : Method VersionIndex
  | manifest (name version : String) : Method Manifest
  | latestManifest (name : String) : Method (String × Manifest)
  | latestVersion (name : String) : Method String
  | manifestUrl (name version : String) : Method String

/-- How an operation comes to its client. -/
inductive ClientChoice
  | named (name : String)
  | default
  | ofPackage (p : InstalledPackage)

/-- Who validates dependencies: the cluster, or rules that look at nothing else. -/
inductive Validator
  | cluster
  | rules (judge : Manifest → String → Except ClusterError Validation)

/-- What a session is asked for, by the type of the answers. -/
inductive Operation : Type → Type 1
  | onClient (choice : ClientChoice) {α : Type} (m : RepoClient.Method α) :
      Operation (Except RepoError α)
  | mergedCatalog : Operation (Except RepoError (PartialResult MergedCatalog))
  | latestVersion (name : String) : Operation (Except RepoError String)
  | repositoriesOffering (name : String) :
      Operation (Except RepoError (PartialResult (List Repository)))
  | validate (v : Validator) (m : Manifest) (version : String) :
      Operation (Except ClusterError Validation)
  | prepare (v : Validator) (selections : List PackageSelection) :
      Operation (Except ClusterError Transaction)
  | prepareFor (v : Validator) (p : InstalledPackage) (version : String) :
      Operation (Except ClusterError Transaction)

/-! ## With a client set -/

variable {α : Type}

def RepoClient.Method.run (web : Web) (c : RepoClient) : Method α → Call α
  | catalog => c.catalog web
  | versionIndex name => c.versionIndex web name
  | manifest name version => c.manifest web name version
  | latestManifest name => c.latestManifest web name
  | latestVersion name => c.latestVersion web name
  | manifestUrl name version => pure (c.manifestUrl name version)

namespace ClientChoice

def find (env : Surroundings) : ClientChoice → Lookup ClientRef
  | named name => forName env name
  | default => forDefault env
  | ofPackage p => forPackage env p

/-- The repository's name; empty for the default one. -/
def name : ClientChoice → String
  | named name => name
  | default => ""
  | ofPackage p => p.repositoryName

end ClientChoice

def Validator.validate (env : Surroundings) (packages : PackageSource) :
    Validator → DependencyValidator
  | cluster => .ofCluster env packages
  | rules judge => fun m version => Plan.answer (judge m version)

/-- A lookup as a step of planning that cannot fail. -/
def Plan.lookup (x : Lookup α) : StateM PlanState α := fun s =>
  ((x.run s.repos).1, { s with repos := (x.run s.repos).2 })

def Operation.run (env : Surroundings) (packages : PackageSource) :
    Operation α → StateM PlanState α
  | onClient choice m =>
    Plan.lookup do call (← choice.find env) fun c => m.run env.web c
  | mergedCatalog => Plan.lookup (Aggregate.mergedCatalog env)
  | latestVersion name => Plan.lookup (Aggregate.latestVersion env name)
  | repositoriesOffering name => Plan.lookup (Aggregate.repositoriesOffering env name)
  | validate v m version => (v.validate env packages m version).run
  | prepare v selections =>
    (Transaction.prepare env packages (v.validate env packages) selections).run
  | prepareFor v p version =>
    (Transaction.prepareFor env (v.validate env packages) p version).run

/-- The packages of the cluster as they are now, and what operations left behind. -/
structure Session where
  packages : PackageSource
  plan : PlanState := {}

inductive Step : Type 1
  | ask {α : Type} (op : Operation α)
  /-- From now on the cluster has these packages. -/
  | write (packages : PackageSource)

namespace Session

def answer (env : Surroundings) (s : Session) (op : Operation α) : α :=
  ((op.run env s.packages).run s.plan).1

def step (env : Surroundings) (s : Session) : Step → Session
  | .ask op => { s with plan := ((op.run env s.packages).run s.plan).2 }
  | .write packages => { s with packages }

def steps (env : Surroundings) (s : Session) (xs : List Step) : Session := xs.foldl (step env) s

end Session

/-! ## Without one -/

def RepoClient.Method.afresh (web : Web) (c : RepoClient) : Method α → Except RepoError α
  | catalog => c.served web
  | versionIndex name => web.document c.auth VersionIndex.codec (c.versionIndexUrl name)
  | manifest name version => web.document c.auth Manifest.codec (c.manifestUrl name version)
  | latestManifest name =>
    match web.document c.auth VersionIndex.codec (c.versionIndexUrl name) with
    | .ok index =>
      (web.document c.auth Manifest.codec (c.manifestUrl name index.latestVersion)).bind fun m =>
        .ok (index.latestVersion, m)
    | .error e =>
      if e.isNotFound then
        (web.document c.auth Manifest.codec (c.versionlessManifestUrl name)).bind fun m =>
          .ok ("", m)
      else .error e
  | latestVersion name =>
    (c.served web).bind fun x => .ok (((x.get? name).map (·.latestVersion)).getD "")
  | manifestUrl name version => .ok (c.manifestUrl name version)

/-- What a client built for this call answers. -/
def Clientset.callAfresh (env : Surroundings) (name : String) (m : RepoClient.Method α) :
    Except RepoError α :=
  (clientNamed env name).bind fun c => m.afresh env.web c

/-- What each repository answers to a client built for this call. -/
def Aggregate.askAfresh (env : Surroundings) (order : List Repository → List Repository)
    (m : RepoClient.Method α) : Except RepoError (Answers α) :=
  env.source.repositories.bind fun rs =>
    .ok ((order (byName rs)).map fun r => (r, (clientOf env r).bind fun c => m.afresh env.web c))

namespace Transaction

/-- What planning learns about a package. -/
def lookedAt (env : Surroundings) (judge : Manifest → String → Except ClusterError Validation)
    (p : InstalledPackage) : Except ClusterError Finding := do
  let catalog ← (callAfresh env p.repositoryName .catalog).mapError .repo
  match catalog.get? p.packageName with
  | none => .error (.packageNotFoundInIndex p.packageName (repositoryLabel p))
  | some entry =>
    if isUpgradable p.desiredVersion entry.latestVersion then
      let manifest ← (callAfresh env p.repositoryName
        (.manifest p.packageName entry.latestVersion)).mapError .repo
      let v ← judge manifest entry.latestVersion
      return { package := p, latest := entry.latestVersion, validation := some v }
    else return { package := p, latest := entry.latestVersion, validation := none }

def prepared (env : Surroundings) (packages : PackageSource)
    (judge : Manifest → String → Except ClusterError Validation)
    (selections : List PackageSelection) : Except ClusterError Transaction := do
  let ps ← selected (selections.map (PackageSelection.resolved packages))
  let fs ← ps.mapM (lookedAt env judge)
  return fs.foldl (take (selections.any PackageSelection.isExplicit)) {}

def preparedFor (env : Surroundings) (judge : Manifest → String → Except ClusterError Validation)
    (p : InstalledPackage) (version : String) : Except ClusterError Transaction :=
  if isUpgradable p.desiredVersion version then do
    let manifest ← (callAfresh env p.repositoryName
      (.manifest p.packageName version)).mapError .repo
    let v ← judge manifest version
    return Transaction.add {} { package := p, version } v
  else .error (.downgradeOrEqual p.desiredVersion version)

end Transaction

def Validator.judge (env : Surroundings) (packages : PackageSource) :
    Validator → Manifest → String → Except ClusterError Validation
  | cluster => fun m _ => DependencyValidator.validationOf env packages m
  | rules judge => judge

/-- The answer of an operation when nothing is kept. -/
def Operation.afresh (env : Surroundings) (packages : PackageSource) : Operation α → α
  | onClient choice m => callAfresh env choice.name m
  | mergedCatalog => (Aggregate.askAfresh env List.reverse .catalog).map Aggregate.merge
  | latestVersion name =>
    (Aggregate.askAfresh env id (.versionIndex name)).bind (Aggregate.newest name)
  | repositoriesOffering name =>
    (Aggregate.askAfresh env id .catalog).bind (Aggregate.offering name)
  | validate v m version => v.judge env packages m version
  | prepare v selections => Transaction.prepared env packages (v.judge env packages) selections
  | prepareFor v p version => Transaction.preparedFor env (v.judge env packages) p version

end ClusterPackages
