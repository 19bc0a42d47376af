import ClusterPackages.Proofs.Session
import ClusterPackages.Proofs.Stepwise

/-! The client sets that there can be. Lookups and calls change the clients and the catalogs that
are kept in three ways only, and every operation is made of lookups and calls. So what these keep
(`IsInvariant`) is true of every client set, whatever becomes of the repositories meanwhile. -/

namespace ClusterPackages

open Clientset

namespace Clientset

/-! ## Invariants -/

/-- What is kept whatever happens to clients and catalogs in these surroundings. -/
structure IsInvariant (env : Surroundings) (I : Clientset → Prop) : Prop where
  /-- Counts and requests have no part in it. -/
  congr : ∀ {s t : Clientset}, I s → t.entries = s.entries → t.catalogs = s.catalogs → I t
  withClient : ∀ {s : Clientset} {r : Repository} {c : RepoClient},
    clientOf env r = .ok c → I s → I (s.withClient r c)
  erase : ∀ {s : Clientset} (name : String), I s → I { s with entries := s.entries.erase name }
  setCatalog : ∀ {s : Clientset} (n : ℕ) (kept : Option Catalog), I s →
    I { s with catalogs := s.catalogs.set n kept }

def Keeps {α : Type} (I : Clientset → Prop) (x : Lookup α) : Prop := ∀ s, I s → I (x.run s).2

section

variable {I : Clientset → Prop} {env : Surroundings} {α β : Type}

theorem Keeps.pure (a : α) : Keeps I (pure a) := fun _ h => h

theorem Keeps.bind {x : Lookup α} {f : α → Lookup β} (hx : Keeps I x) (hf : ∀ a, Keeps I (f a)) :
    Keeps I (x >>= f) := fun s h => hf _ _ (hx s h)

theorem Keeps.map {x : Lookup α} (hx : Keeps I x) (f : α → β) : Keeps I (f <$> x) :=
  fun s h => hx s h

variable (h : IsInvariant env I)
include h

theorem forRepo_keeps (r : Repository) : Keeps I (forRepo env r) := by
  intro s hs
  rw [forRepo_run]
  cases s.clientFor r with
  | some c => exact hs
  | none =>
    have hs' : I { s with lookups.secrets := s.lookups.secrets + secretReads env r } :=
      h.congr hs rfl rfl
    cases hc : clientOf env r with
    | ok c => exact h.withClient hc hs'
    | error e => exact h.erase r.name hs'

theorem listRepositories_keeps : Keeps I (listRepositories env) := fun _ hs => h.congr hs rfl rfl

theorem forDefault_keeps : Keeps I (forDefault env) := by
  unfold forDefault defaultRepository
  refine .bind (.bind (listRepositories_keeps h) fun rs => ?_) fun found => ?_
  · cases rs <;> exact .pure _
  · cases found with
    | ok r => exact forRepo_keeps h r
    | error e => exact .pure _

theorem forName_keeps (name : String) : Keeps I (forName env name) := by
  unfold forName
  split_ifs
  · exact forDefault_keeps h
  · refine .bind (fun s hs => ?_) fun checked => ?_
    · rw [recentlyChecked_run]
      exact hs
    · cases checked with
      | some c => exact .pure _
      | none =>
        refine .bind (fun s hs => h.congr hs rfl rfl) fun found => ?_
        cases found with
        | ok r => exact forRepo_keeps h r
        | error e => exact .pure _

theorem call_keeps (ref : ClientRef) (op : RepoClient → Call α) : Keeps I (call ref op) := by
  intro s hs
  cases ref with
  | failing e => exact hs
  | built c =>
    rw [call_run_built]
    exact h.congr (h.setCatalog c.number _ hs) rfl rfl

end
end Clientset

namespace Aggregate

variable {I : Clientset → Prop} {env : Surroundings} {α : Type} (h : IsInvariant env I)
include h

theorem askAll_keeps (op : RepoClient → Call α) (rs : List Repository) :
    Keeps I (askAll env op rs) := by
  induction rs with
  | nil => exact .pure _
  | cons r rs ih =>
    exact (forRepo_keeps h r).bind fun ref => (call_keeps h ref op).bind fun _ =>
      ih.bind fun _ => .pure _

theorem ask_keeps (order : List Repository → List Repository) (op : RepoClient → Call α) :
    Keeps I (ask env order op) := by
  unfold ask
  refine (listRepositories_keeps h).bind fun rs => ?_
  cases rs with
  | ok rs => exact (askAll_keeps h op _).map _
  | error e => exact .pure _

end Aggregate

/-! ## Plans -/

namespace Plan

variable {I : Clientset → Prop} {α β : Type}

def Keeps (I : Clientset → Prop) (x : Plan α) : Prop := ∀ s, I s.repos → I (x.run s).2.repos

theorem Keeps.bind {x : Plan α} {f : α → Plan β} (hx : Keeps I x) (hf : ∀ a, Keeps I (f a)) :
    Keeps I (x >>= f) :=
  Run.bind_moves (R := fun s t : PlanState => I s.repos → I t.repos)
    (fun hst htu hs => htu (hst hs)) hx hf

/-- Planning reaches client sets only by lookups and calls. -/
theorem isStepwise_keeps {env : Surroundings} (h : IsInvariant env I) :
    IsStepwise env (fun _ => True) fun x => Keeps I x where
  repo _ := trivial
  value _ _ hs := hs
  failure _ _ hs := hs
  sequel := Keeps.bind
  countGet _ hs := hs
  forDefault s hs := forDefault_keeps h s.repos hs
  forName name s hs := forName_keeps h name s.repos hs
  call ref op s hs := call_keeps h ref op s.repos hs

end Plan

section

variable {I : Clientset → Prop} {env : Surroundings} (h : IsInvariant env I)
include h

theorem Validator.keeps (packages : PackageSource) (v : Validator) (m : Manifest)
    (version : String) : Plan.Keeps I (v.validate env packages m version) := by
  cases v with
  | cluster =>
    exact DependencyValidator.ofCluster_stepwise (Plan.isStepwise_keeps h) (fun _ _ _ => trivial) m
      version
  | rules judge => exact fun _ hs => hs

namespace Transaction

variable {validate : DependencyValidator} (hv : ∀ m version, Plan.Keeps I (validate m version))
include hv

theorem prepare_keeps (source : PackageSource) (selections : List PackageSelection) :
    Plan.Keeps I (prepare env source validate selections) := by
  intro s hs
  have hanswer (x : Except ClusterError (List InstalledPackage)) : Plan.Keeps I (Plan.answer x) :=
    fun _ h => h
  rw [prepare_run]
  exact (hanswer _).bind
    (fun ps => addPackages_stepwise (Plan.isStepwise_keeps h) hv (fun _ _ => trivial) _ {} ps) _
    ((PackageSelection.getAll_run source selections s).2 ▸ hs)

end Transaction

theorem ClientChoice.find_keeps (choice : ClientChoice) : Keeps I (choice.find env) := by
  cases choice with
  | named name => exact forName_keeps h name
  | default => exact forDefault_keeps h
  | ofPackage p => exact forName_keeps h p.repositoryName

/-- Every operation keeps what lookups and calls keep. -/
theorem Operation.keeps {α : Type} (packages : PackageSource) (op : Operation α) (s : PlanState)
    (hs : I s.repos) : I ((op.run env packages).run s).2.repos := by
  cases op with
  | onClient choice m =>
    exact (choice.find_keeps h).bind (fun ref => call_keeps h ref _) s.repos hs
  | mergedCatalog =>
    exact Aggregate.ask_keeps h List.reverse (RepoClient.catalog env.web) s.repos hs
  | latestVersion name =>
    exact Aggregate.ask_keeps h id (fun c => c.versionIndex env.web name) s.repos hs
  | repositoriesOffering name =>
    exact Aggregate.ask_keeps h id (RepoClient.catalog env.web) s.repos hs
  | validate v m version => exact v.keeps h packages m version s hs
  | prepare v selections =>
    exact Transaction.prepare_keeps h (v.keeps h packages) packages selections s hs
  | prepareFor v p version =>
    exact Transaction.prepareFor_stepwise (Plan.isStepwise_keeps h) (v.keeps h packages)
      (fun _ _ => trivial) p version s hs

end

/-! ## Client sets that can be -/

/-- The client sets that come of a new one, as repositories, secrets, pages and packages change. -/
inductive Clientset.Reachable : Clientset → Prop
  | new : Reachable {}
  | asked {α : Type} (env : Surroundings) (packages : PackageSource) (op : Operation α)
      (s : PlanState) (h : Reachable s.repos) : Reachable ((op.run env packages).run s).2.repos
  /-- A repository that need not be the source's. -/
  | found (env : Surroundings) (r : Repository) (s : Clientset) (h : Reachable s) :
      Reachable ((forRepo env r).run s).2
  /-- A client that may have been found long before. -/
  | called {α : Type} (ref : ClientRef) (op : RepoClient → Call α) (s : Clientset)
      (h : Reachable s) : Reachable ((call ref op).run s).2

/-- No repositories, and nobody who takes a request. -/
instance : Inhabited Surroundings :=
  ⟨{ settings := {}, source := ({} : Inventory).toSource, web := fun _ => .unreachable }⟩

theorem Clientset.Reachable.invariant {I : Clientset → Prop} (h : ∀ env, IsInvariant env I)
    (new : I {})
    {s : Clientset} (hs : Reachable s) : I s := by
  induction hs with
  | new => exact new
  | asked env packages op s _ ih => exact op.keeps (h env) packages s ih
  | found env r s _ ih => exact forRepo_keeps (h env) r s ih
  | called ref op s _ ih => exact call_keeps (h default) ref op s ih

end ClusterPackages
