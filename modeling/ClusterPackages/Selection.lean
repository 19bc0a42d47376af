import ClusterPackages.Clientset
import ClusterPackages.PackageStore

/-!
Which installed packages an update is about. Selections that name their targets are explicit: each
name must be found, and targets that are up to date are reported too.
-/

namespace ClusterPackages

/-- What planning an update may change: what is kept and counted, never the packages. -/
structure PlanState where
  repos : Clientset := {}
  asked : PackageCounts := {}

abbrev Plan := ExceptT ClusterError (StateM PlanState)

namespace Plan

def onRepos (x : Clientset.Lookup α) : Plan α :=
  modifyGet fun s =>
    let (a, repos) := x.run s.repos
    (a, { s with repos })

def onClient (x : Clientset.Lookup (Except RepoError α)) : Plan α := do
  match ← onRepos x with
  | .ok a => pure a
  | .error e => throw (.repo e)

def countGet : Plan Unit := modify fun s => { s with asked.gets := s.asked.gets + 1 }

def countList : Plan Unit := modify fun s => { s with asked.lists := s.asked.lists + 1 }

def answer (x : Except ClusterError α) : Plan α := ExceptT.mk (pure x)

end Plan

structure NamespacedName where
  «namespace» : String
  name : String
  deriving DecidableEq, Repr

def NamespacedName.text (n : NamespacedName) : String := n.namespace ++ "/" ++ n.name

inductive PackageSelection
  | exact (packages : List InstalledPackage)
  | allClusterPackages
  /-- In one namespace or in all. -/
  | allPackages («namespace» : Option String)
  | clusterPackagesNamed (names : List String)
  | packagesNamed (names : List NamespacedName)
  deriving DecidableEq, Repr

namespace PackageSelection

/-- An empty namespace stands for all. -/
def allPackagesIn (ns : String) : PackageSelection := .allPackages (if ns = "" then none else some ns)

def isExplicit : PackageSelection → Bool
  | .exact _ | .clusterPackagesNamed _ | .packagesNamed _ => true
  | .allClusterPackages | .allPackages _ => false

def getEach (get : α → Except ClusterError InstalledPackage) :
    List α → Plan (List InstalledPackage)
  | [] => pure []
  | n :: ns => do
    Plan.countGet
    let p ← Plan.answer (get n)
    let ps ← getEach get ns
    pure (p :: ps)

/-- The packages of a selection; of names the first that is missing ends the search. -/
def get (source : PackageSource) : PackageSelection → Plan (List InstalledPackage)
  | .exact packages => pure packages
  | .allClusterPackages => do
    Plan.countList
    Plan.answer source.clusterPackages
  | .allPackages ns => do
    Plan.countList
    Plan.answer (source.packages ns)
  | .clusterPackagesNamed names => getEach source.clusterPackage names
  | .packagesNamed names => getEach (fun n => source.package n.namespace n.name) names

/-- What each selection gives, whether others fail or not. -/
def getAll (source : PackageSource) :
    List PackageSelection → StateM PlanState (List (Except ClusterError (List InstalledPackage)))
  | [] => pure []
  | s :: ss => do
    let found ← (s.get source).run
    let more ← getAll source ss
    pure (found :: more)

end PackageSelection
end ClusterPackages
