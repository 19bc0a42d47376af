import ClusterPackages.ClusterError

/-!
Installed packages as a cluster keeps them: what it answers when asked, the events that tell of
changes, and a cluster kept in memory.
-/

namespace ClusterPackages

inductive PackageEvent
  | added (object : InstalledPackage)
  | modified (object : InstalledPackage)
  | deleted (object : InstalledPackage)
  deriving DecidableEq, Repr

namespace PackageEvent

def object : PackageEvent → InstalledPackage
  | added p | modified p | deleted p => p

def isDeleted : PackageEvent → Bool
  | deleted _ => true
  | added _ | modified _ => false

end PackageEvent

structure PackageCounts where
  gets : Nat := 0
  lists : Nat := 0
  updates : Nat := 0
  watches : Nat := 0
  deriving DecidableEq, Repr

/-- What a cluster answers as long as nothing changes. -/
structure PackageSource where
  clusterPackages : Except ClusterError (List InstalledPackage)
  /-- Of one namespace or of all. -/
  packages : Option String → Except ClusterError (List InstalledPackage)
  clusterPackage : String → Except ClusterError InstalledPackage
  package : («namespace» name : String) → Except ClusterError InstalledPackage

structure PackageStore where
  clusterPackages : TextMap InstalledPackage := []
  /-- By namespace, then by name. -/
  packages : TextMap (TextMap InstalledPackage) := []
  refusing : List String := []
  /-- What the next watch of an object tells, by the object's text. -/
  scripts : TextMap (List PackageEvent) := []
  /-- Whether an update is installed at once. -/
  converges : Bool := false

namespace PackageStore

def namespaceOf (p : InstalledPackage) : String := p.namespace?.getD ""

def stored? (s : PackageStore) (p : InstalledPackage) : Option InstalledPackage :=
  match p.kind with
  | .clusterPackage => s.clusterPackages.get? p.name
  | .package => (s.packages.get? (namespaceOf p)).bind (TextMap.get? p.name)

def put (s : PackageStore) (p : InstalledPackage) : PackageStore :=
  match p.kind with
  | .clusterPackage => { s with clusterPackages := s.clusterPackages.insert p.name p }
  | .package =>
    let inside := ((s.packages.get? (namespaceOf p)).getD []).insert p.name p
    { s with packages := s.packages.insert (namespaceOf p) inside }

def IsSamePlace (p q : InstalledPackage) : Prop :=
  p.kind = q.kind ∧ p.name = q.name ∧ (p.kind = .package → namespaceOf p = namespaceOf q)

instance (p q : InstalledPackage) : Decidable (IsSamePlace p q) := by
  unfold IsSamePlace
  infer_instance

theorem stored?_put (s : PackageStore) (p q : InstalledPackage) :
    (s.put p).stored? q = if IsSamePlace p q then some p else s.stored? q := by
  have name : p.name = q.name ↔ q.name = p.name := eq_comm
  have place : namespaceOf p = namespaceOf q ↔ namespaceOf q = namespaceOf p := eq_comm
  rcases hp : p.kind with _ | _ <;> rcases hq : q.kind with _ | _ <;>
    simp [put, stored?, IsSamePlace, hp, hq, name, place, TextMap.get?_insert]
  by_cases inside : namespaceOf q = namespaceOf p
  · simp only [inside, if_true, Option.bind_some, TextMap.get?_insert, and_true]
    split
    · rfl
    · cases s.packages.get? (namespaceOf p) <;> rfl
  · simp [inside]

def ofList (ps : List InstalledPackage) : PackageStore := ps.foldl put {}

def refuseUpdates (s : PackageStore) (name : String) : PackageStore :=
  { s with refusing := name :: s.refusing }

def scriptWatch (s : PackageStore) (p : InstalledPackage) (events : List PackageEvent) :
    PackageStore :=
  { s with scripts := s.scripts.insert p.text events }

def missing (p : InstalledPackage) : ClusterError := .packageNotFound p.kind p.name p.namespace?

def toSource (s : PackageStore) : PackageSource where
  clusterPackages := .ok (List.map Prod.snd s.clusterPackages)
  packages ns :=
    let chosen := match ns with
      | none => s.packages
      | some ns => List.filter (·.1 == ns) s.packages
    .ok (chosen.flatMap fun inside => List.map Prod.snd inside.2)
  clusterPackage name :=
    match s.clusterPackages.get? name with
    | some p => .ok p
    | none => .error (.packageNotFound .clusterPackage name none)
  package ns name :=
    match (s.packages.get? ns).bind (TextMap.get? name) with
    | some p => .ok p
    | none => .error (.packageNotFound .package name (some ns))

/-! ## Updates -/

def conflict (p : InstalledPackage) : ClusterError :=
  .api { status := "Failure", message := "the object " ++ p.text ++ " has been modified",
         reason := "Conflict", code := 409 }

/-- The stored object with a new desired version, which may be installed at once. -/
def moved (converges : Bool) (version : String) (p : InstalledPackage) : InstalledPackage :=
  let p := p.setDesiredVersion version
  if converges then { p with status := some { p.status.getD {} with version } } else p

def updateVersion (s : PackageStore) (p : InstalledPackage) (version : String) :
    Except ClusterError InstalledPackage × PackageStore :=
  if s.refusing.contains p.name then (.error (conflict p), s)
  else match s.stored? p with
    | none => (.error (missing p), s)
    | some q =>
      let q := moved s.converges version q
      (.ok q, s.put q)

def watch (s : PackageStore) (p : InstalledPackage) : List PackageEvent × PackageStore :=
  match s.scripts.get? p.text with
  | some events => (events, { s with scripts := s.scripts.erase p.text })
  | none => (if s.converges then (s.stored? p).toList.map .modified else [], s)

end PackageStore
end ClusterPackages
