import ClusterPackages.Transaction

/-!
Applying updates, one after the other up to the first that fails; perhaps waiting after each until
it is seen to be installed.
-/

namespace ClusterPackages

namespace Update

/-- What one event tells about an update that is waited for: nothing, or how it ended. -/
def verdict? (p : InstalledPackage) (event : PackageEvent) :
    Option (Except ClusterError InstalledPackage) :=
  let q := event.object
  -- an object with another desired version is passed over even when it is deleted
  if !q.isSameObject p || q.desiredVersion != p.desiredVersion then none
  else if event.isDeleted then some (.error (PackageStore.missing p))
  else if q.isConverged then some (.ok q)
  else match q.readyCondition? with
    | some c => if c.status = "False" then some (.error (.notReady p.text c.reason c.message)) else none
    | none => none

/-- Waits for an update on a stream of events, in which errors may stand. -/
def await (p : InstalledPackage) :
    List (Except ClusterError PackageEvent) → Except ClusterError InstalledPackage
  | [] => .error (.watchClosed p.text)
  | .error e :: _ => .error e
  | .ok event :: rest =>
    match verdict? p event with
    | some result => result
    | none => await p rest

structure State where
  store : PackageStore := {}
  asked : PackageCounts := {}

abbrev Write := ExceptT ClusterError (StateM State)

def updateVersion (p : InstalledPackage) (version : String) : Write InstalledPackage := do
  let s ← get
  let (result, store) := s.store.updateVersion p version
  set ({ store, asked := { s.asked with updates := s.asked.updates + 1 } } : State)
  ExceptT.mk (pure result)

def watch (p : InstalledPackage) : Write (List PackageEvent) := do
  let s ← get
  let (events, store) := s.store.watch p
  set ({ store, asked := { s.asked with watches := s.asked.watches + 1 } } : State)
  pure events

def applyItem (isBlocking : Bool) (item : UpdateItem) : Write InstalledPackage := do
  let p ← updateVersion item.package item.version
  if isBlocking then
    let events ← watch p
    ExceptT.mk (pure (await p (events.map .ok)))
  else pure p

def named (item : UpdateItem) (x : Write α) : Write α :=
  tryCatch x fun e => throw (.updateFailed item.package.text e)

def applyItems (isBlocking : Bool) : List UpdateItem → Write (List InstalledPackage)
  | [] => pure []
  | item :: items => do
    let p ← named item (applyItem isBlocking item)
    let ps ← applyItems isBlocking items
    pure (p :: ps)

/-- Writes the new versions; returns the objects as they are then. -/
def apply (isBlocking : Bool) (t : Transaction) : Write (List InstalledPackage) :=
  applyItems isBlocking (t.items.filter UpdateItem.isRequired)

end Update
end ClusterPackages
