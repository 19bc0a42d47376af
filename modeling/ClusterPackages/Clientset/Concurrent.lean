import ClusterPackages.Clientset

/-!
Lookups by name that run side by side. Each goes on until it has to wait: for the lock on names,
which those who wait get in the order in which they came, or for a secret, which takes a while to
arrive. Time moves only when all wait, and those who can go on do so in the order of their names
in the list.
-/

namespace ClusterPackages.Clientset

inductive Stage
  | begun (name : String)
  | queued (name : String)
  | alone (name : String)
  | resolving (repository : Repository) (isLocked : Bool)
      (plan : SecretPlan (Except RepoError Authenticator))
  | asleep (time : Nat) (repository : Repository) (isLocked : Bool) (secret : String)
      (next : Except RepoError Secret → SecretPlan (Except RepoError Authenticator))
  | found (client : ClientRef)

structure Crowd where
  now : Nat := 0
  /-- Whose turn at the lock it is, and who comes then. -/
  line : List Nat := []

abbrev Side := StateT Crowd Lookup

def join (index : Nat) : Side Unit := modify fun c => { c with line := c.line ++ [index] }

def leave (isLocked : Bool) : Side Unit :=
  if isLocked then modify fun c => { c with line := c.line.drop 1 } else pure ()

def finish (isLocked : Bool) (client : ClientRef) : Side Stage := do
  leave isLocked
  pure (.found client)

def beginRepo (env : Surroundings) (isLocked : Bool) (r : Repository) : Side Stage := do
  match ← cachedFor r.name r.spec with
  | some c => finish isLocked (.built c)
  | none => pure (.resolving r isLocked (authPlan env r))

/-- The next stage of a lookup, if it need not wait. -/
def advance (env : Surroundings) (delay index : Nat) : Stage → Side (Option Stage)
  | .begun name => do
    -- the default repository is looked for without the lock
    if name = "" then
      match ← defaultRepository env with
      | .ok r => some <$> beginRepo env false r
      | .error e => pure (some (.found (.failing e)))
    else match ← recentlyChecked env name with
      | some c => pure (some (.found (.built c)))
      | none => do
        join index
        pure (some (.queued name))
  | .queued name => do
    if (← get).line.head? = some index then pure (some (.alone name)) else pure none
  | .alone name => do
    -- whoever held the lock before may have found what is looked for here
    match ← recentlyChecked env name with
    | some c => some <$> finish true (.built c)
    | none =>
      match ← getRepository env name with
      | .ok r => some <$> beginRepo env true r
      | .error e => some <$> finish true (.failing e)
  | .resolving r isLocked (.done auth) => do
    let client ← takeIn r (clientWith env r auth)
    some <$> finish isLocked client
  | .resolving r isLocked (.read name next) => do
    countSecrets 1
    if delay = 0 then pure (some (.resolving r isLocked (next (secretOf env name))))
    else pure (some (.asleep ((← get).now + delay) r isLocked name next))
  | .asleep time r isLocked name next => do
    if time ≤ (← get).now then pure (some (.resolving r isLocked (next (secretOf env name))))
    else pure none
  | .found _ => pure none

def advanceAll (env : Surroundings) (delay index : Nat) : (fuel : Nat) → Stage → Side Stage
  | 0, s => pure s
  | fuel + 1, s => do
    match ← advance env delay index s with
    | some s => advanceAll env delay index fuel s
    | none => pure s

def wakeTime? : Stage → Option Nat
  | .asleep time .. => some time
  | _ => none

def canGoOn (crowd : Crowd) (index : Nat) : Stage → Bool
  | .queued _ => crowd.line.head? == some index
  | _ => false

def client? : Stage → Option ClientRef
  | .found c => some c
  | _ => none

/-- A lookup has fewer stages than this. -/
def stageLimit : Nat := 12

/-- Everyone in turn goes on as far as possible; then time moves on to the next who wakes. -/
def rounds (env : Surroundings) (delay : Nat) : (fuel : Nat) → List Stage → Side (List Stage)
  | 0, stages => pure stages
  | fuel + 1, stages => do
    let stages ← stages.zipIdx.mapM fun (s, i) => advanceAll env delay i stageLimit s
    if stages.all fun s => (client? s).isSome then pure stages
    else
      let crowd ← get
      if !stages.zipIdx.any (fun (s, i) => canGoOn crowd i s) then
        set { crowd with now := ((stages.filterMap wakeTime?).min?).getD crowd.now }
      rounds env delay fuel stages

/-- Looks up all names at once, when each secret takes `delay` to arrive. -/
def forNames (env : Surroundings) (delay : Nat) (names : List String) : Lookup (List ClientRef) := do
  let fuel := stageLimit * (names.length + 1)
  let (stages, _) ← (rounds env delay fuel (names.map .begun)).run {}
  pure (stages.filterMap client?)

end ClusterPackages.Clientset
