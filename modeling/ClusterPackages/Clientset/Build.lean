import ClusterPackages.Clientset

/-!
Lookups of repositories' clients that run side by side, without lookups in the cluster. Each has
three steps, and between any two of them others may take theirs: it looks at the clients at hand,
builds one, and takes that in.
-/

namespace ClusterPackages.Clientset

inductive BuildStage
  | begun (repository : Repository)
  | missed (repository : Repository)
  | built (repository : Repository) (result : Except RepoError RepoClient)
  | found (client : ClientRef)

namespace BuildStage

/-- The next stage. Surroundings may differ from step to step. -/
def next (env : Surroundings) : BuildStage → Lookup BuildStage
  | .begun r => do
    match ← cachedFor r.name r.spec with
    | some c => pure (.found (.built c))
    | none => pure (.missed r)
  | .missed r => do pure (.built r (← build env r))
  | .built r result => do pure (.found (← takeIn r result))
  | .found c => pure (.found c)

end BuildStage

structure Builds where
  clients : Clientset := {}
  stages : List BuildStage

namespace Builds

def step (s : Builds) (turn : Nat × Surroundings) : Builds :=
  match s.stages[turn.1]? with
  | none => s
  | some stage =>
    let (stage, clients) := (stage.next turn.2).run s.clients
    { clients, stages := s.stages.set turn.1 stage }

def run (s : Builds) (turns : List (Nat × Surroundings)) : Builds := turns.foldl step s

end Builds

/-- Alone, the three steps are the lookup. -/
theorem three_steps_eq_forRepo (env : Surroundings) (r : Repository) :
    (do (← (← (BuildStage.begun r).next env).next env).next env) =
      BuildStage.found <$> forRepo env r := by
  funext s
  simp only [BuildStage.next, forRepo, bind, StateT.bind, Functor.map, StateT.map]
  rcases h : cachedFor r.name r.spec s with ⟨_ | c, t⟩ <;> rfl

end ClusterPackages.Clientset
