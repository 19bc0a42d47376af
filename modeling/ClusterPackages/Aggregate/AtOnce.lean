import ClusterPackages.Aggregate
import ClusterPackages.Clientset.Build

/-!
Repositories that are asked side by side. Each looks up its client in three steps and makes its call
in one more, and between any two of them others may take theirs. A call is one step since it works
with a client of its own.
-/

namespace ClusterPackages.Aggregate

open Clientset

inductive AskStage (α : Type)
  | looking (stage : BuildStage)
  | answered (answer : Except RepoError α)

def AskStage.next (env : Surroundings) (operation : RepoClient → Call α) :
    AskStage α → Lookup (AskStage α)
  | .looking (.found ref) => do pure (.answered (← call ref operation))
  | .looking stage => do pure (.looking (← stage.next env))
  | .answered answer => pure (.answered answer)

/-- A client set, and where the repositories stand that are asked through it. -/
structure AtOnce (α : Type) where
  clients : Clientset
  stages : List (AskStage α)

namespace AtOnce

def start (clients : Clientset) (rs : List Repository) : AtOnce α where
  clients
  stages := rs.map fun r => .looking (.begun r)

def step (env : Surroundings) (operation : RepoClient → Call α) (s : AtOnce α) (turn : Nat) :
    AtOnce α :=
  match s.stages[turn]? with
  | none => s
  | some stage =>
    let (stage, clients) := (stage.next env operation).run s.clients
    { clients, stages := s.stages.set turn stage }

def run (env : Surroundings) (operation : RepoClient → Call α) (s : AtOnce α)
    (turns : List Nat) : AtOnce α :=
  turns.foldl (step env operation) s

end AtOnce
end ClusterPackages.Aggregate
