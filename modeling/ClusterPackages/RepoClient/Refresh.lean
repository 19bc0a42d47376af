import ClusterPackages.RepoClient

/-!
Readers of one client's catalog side by side. A reader takes the catalog at hand if that is fresh.
Otherwise it waits for the lock, looks again, asks for the catalog and keeps it. Between any two of
these steps others may take theirs, and the catalog may be forgotten.
-/

namespace ClusterPackages.RepoClient

/-- Where a reader stands. From `locked` to `leaving` it holds the lock. -/
inductive Reader
  | starting
  | waiting
  | locked
  | asking
  | answered (catalog : Catalog)
  | leaving (result : Except RepoError Catalog)
  | finished (result : Except RepoError Catalog)

structure Refresh where
  kept : Option Catalog := none
  holder : Option Nat := none
  readers : List Reader

inductive RefreshEvent
  /-- A reader takes its next step; if that asks for the catalog, `answer` is what it gets. -/
  | advance (index : Nat) (answer : Except RepoError Catalog)
  | invalidate

namespace Refresh

def start (kept : Option Catalog) (count : Nat) : Refresh :=
  { kept, readers := List.replicate count .starting }

def move (s : Refresh) (index : Nat) (r : Reader) : Refresh :=
  { s with readers := s.readers.set index r }

def look (c : RepoClient) (s : Refresh) (index : Nat) (hit : Catalog → Reader) (miss : Reader) :
    Refresh :=
  s.move index (((c.fresh? s.kept).map hit).getD miss)

/-- One step of a reader; there is none while another holds the lock, and none after the last. -/
def advance? (c : RepoClient) (s : Refresh) (index : Nat) (answer : Except RepoError Catalog) :
    Reader → Option Refresh
  | .starting => some (s.look c index (fun x => .finished (.ok x)) .waiting)
  | .waiting =>
    if s.holder.isSome then none else some { s.move index .locked with holder := some index }
  -- others may have kept a catalog while this one waited
  | .locked => some (s.look c index (fun x => .leaving (.ok x)) .asking)
  | .asking =>
    match answer with
    | .ok x => some (s.move index (.answered x))
    | .error e => some (s.move index (.leaving (.error e)))
  | .answered x => some { s.move index (.leaving (.ok x)) with kept := some x }
  | .leaving result => some { s.move index (.finished result) with holder := none }
  | .finished _ => none

def step? (c : RepoClient) (s : Refresh) : RefreshEvent → Option Refresh
  | .advance index answer => s.readers[index]?.bind (s.advance? c index answer)
  | .invalidate => some { s with kept := none }

def run? (c : RepoClient) (s : Refresh) (events : List RefreshEvent) : Option Refresh :=
  events.foldlM (step? c) s

end Refresh
end ClusterPackages.RepoClient
