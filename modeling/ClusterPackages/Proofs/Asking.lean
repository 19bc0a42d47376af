import ClusterPackages.Proofs.Reachable
import Mathlib.Data.List.Nodup

/-! Asking all repositories. Clients of different repositories keep their catalogs apart
(`IsSound`), so what one is asked changes nothing for another: all of them together answer what each
would answer alone. -/

namespace ClusterPackages

open Clientset

namespace Clientset

/-! ## Clients apart -/

/-- Clients that are kept have numbers of their own. -/
structure IsSound (s : Clientset) : Prop where
  inRange : ∀ name e, s.entries.get? name = some e → e.client.number < s.catalogs.length
  apart : ∀ name name' e e', s.entries.get? name = some e → s.entries.get? name' = some e' →
    e.client.number = e'.client.number → name = name'

theorem isSound_empty : IsSound {} :=
  ⟨fun _ _ h => (by cases h), fun _ _ _ _ h => (by cases h)⟩

theorem IsSound.withClient {s : Clientset} (h : IsSound s) (r : Repository) (c : RepoClient) :
    IsSound (s.withClient r c) := by
  unfold Clientset.withClient
  constructor
  · intro name e he
    rw [TextMap.get?_insert] at he
    rw [List.length_append, List.length_singleton]
    split_ifs at he
    · obtain rfl := Option.some.inj he
      exact Nat.lt_succ_self _
    · exact (h.inRange name e he).trans (Nat.lt_succ_self _)
  · intro name name' e e' he he' heq
    rw [TextMap.get?_insert] at he he'
    -- an older client has a smaller number than the new one
    split_ifs at he he' with hname hname' hname'
    · exact hname.trans hname'.symm
    · obtain rfl := Option.some.inj he
      exact absurd heq (h.inRange name' e' he').ne'
    · obtain rfl := Option.some.inj he'
      exact absurd heq (h.inRange name e he).ne
    · exact h.apart name name' e e' he he' heq

theorem IsSound.erase {s : Clientset} (h : IsSound s) (name : String) :
    IsSound { s with entries := s.entries.erase name } :=
  ⟨fun k e he => h.inRange k e (TextMap.get?_of_get?_erase he), fun k k' e e' he he' =>
    h.apart k k' e e' (TextMap.get?_of_get?_erase he) (TextMap.get?_of_get?_erase he')⟩

theorem isInvariant_isSound (env : Surroundings) : IsInvariant env IsSound where
  congr h he hc := ⟨by rw [he, hc]; exact h.inRange, by rw [he]; exact h.apart⟩
  withClient _ h := h.withClient _ _
  erase name h := h.erase name
  setCatalog n kept h :=
    ⟨fun name e he => (h.inRange name e he).trans_eq (List.length_set).symm, h.apart⟩

theorem Reachable.isSound {s : Clientset} (hs : Reachable s) : IsSound s :=
  hs.invariant isInvariant_isSound isSound_empty

/-! ## One repository -/

/-- The client that is kept for a repository, and the catalog that it keeps. -/
def keptFor (s : Clientset) (r : Repository) : Option (RepoClient × Option Catalog) :=
  (s.clientFor r).map fun c => (c.client, (s.catalogs[c.number]?).join)

variable {env : Surroundings} {α : Type}

def askOne (env : Surroundings) (op : RepoClient → Call α) (r : Repository) :
    Lookup (Except RepoError α) := do
  call (← forRepo env r) op

/-- What a repository answers if it is asked now. -/
def outcome (env : Surroundings) (op : RepoClient → Call α) (s : Clientset) (r : Repository) :
    Except RepoError α :=
  ((askOne env op r).run s).1

theorem outcome_eq (op : RepoClient → Call α) (s : Clientset) (r : Repository) :
    outcome env op s r =
      match s.keptFor r with
      | some (c, kept) => ((op c).run { catalog := kept, requests := s.requests }).1
      | none => (clientOf env r).bind fun c => ((op c).run { requests := s.requests }).1 := by
  unfold outcome askOne keptFor
  rw [StateT.run_bind, forRepo_run]
  cases s.clientFor r with
  | some c => rfl
  | none =>
    cases clientOf env r with
    | error e => rfl
    | ok c =>
      -- the new client is the last, and keeps nothing yet
      change ((op c).run
        { catalog := ((s.catalogs ++ [none])[s.catalogs.length]?).join
          requests := s.requests }).1 = _
      rw [List.getElem?_concat_length]
      rfl

theorem IsSound.askOne {s : Clientset} (h : IsSound s) (op : RepoClient → Call α) (r : Repository) :
    IsSound ((askOne env op r).run s).2 :=
  (forRepo_keeps (isInvariant_isSound env) r).bind
    (fun ref => call_keeps (isInvariant_isSound env) ref op) s h

/-- What a client keeps shows in a call's result, and the requests made so far do not. -/
def IgnoresRequests (op : RepoClient → Call α) : Prop :=
  ∀ c t requests, ((op c).run { t with requests }).1 = ((op c).run t).1

theorem ignoresRequests_catalog (web : Web) : IgnoresRequests (RepoClient.catalog web) := by
  intro c t requests
  obtain ⟨_, hrun⟩ := c.catalog_run web t
  obtain ⟨_, hrun'⟩ := c.catalog_run web { t with requests }
  rw [hrun, hrun']

theorem ignoresRequests_versionIndex (web : Web) (name : String) :
    IgnoresRequests fun c => c.versionIndex web name := by
  intro c t requests
  obtain ⟨_, hrun⟩ := web.fetch_run c.auth VersionIndex.codec (c.versionIndexUrl name) t
  obtain ⟨_, hrun'⟩ :=
    web.fetch_run c.auth VersionIndex.codec (c.versionIndexUrl name) { t with requests }
  unfold RepoClient.versionIndex
  rw [hrun, hrun']

theorem outcome_congr {op : RepoClient → Call α} (hop : IgnoresRequests op) {s t : Clientset}
    {r : Repository} (h : t.keptFor r = s.keptFor r) : outcome env op t r = outcome env op s r := by
  rw [outcome_eq, outcome_eq, h]
  cases s.keptFor r with
  | some kept =>
    exact hop kept.1 { catalog := kept.2, requests := s.requests } t.requests
  | none =>
    cases clientOf env r with
    | error e => rfl
    | ok c => exact hop c { requests := s.requests } t.requests

theorem keptFor_congr {s t : Clientset} {r : Repository}
    (entry : t.entries.get? r.name = s.entries.get? r.name)
    (catalog : ∀ e, s.entries.get? r.name = some e →
      t.catalogs[e.client.number]? = s.catalogs[e.client.number]?) :
    t.keptFor r = s.keptFor r := by
  unfold keptFor clientFor
  rw [entry]
  cases he : s.entries.get? r.name with
  | none => rfl
  | some e =>
    simp only [Option.bind_some]
    split_ifs
    · rw [Option.map_some, Option.map_some, catalog e he]
    · rfl

/-- Asking one repository leaves what is kept for another. -/
theorem IsSound.keptFor_askOne {s : Clientset} (h : IsSound s) (op : RepoClient → Call α)
    {r r' : Repository} (hne : r'.name ≠ r.name) :
    ((Clientset.askOne env op r).run s).2.keptFor r' = s.keptFor r' := by
  unfold Clientset.askOne
  rw [StateT.run_bind, forRepo_run]
  cases hc : s.clientFor r with
  | some c =>
    obtain ⟨e, he, -, rfl⟩ := exists_of_clientFor hc
    refine keptFor_congr rfl fun e' he' => ?_
    exact List.getElem?_set_ne fun heq => hne (h.apart _ _ e e' he he' heq).symm
  | none =>
    cases clientOf env r with
    | error e =>
      refine keptFor_congr ?_ fun _ _ => rfl
      change (s.entries.erase r.name).get? r'.name = _
      rw [TextMap.get?_erase, if_neg hne]
    | ok c =>
      refine keptFor_congr ?_ fun e' he' => ?_
      · change (s.entries.insert r.name _).get? r'.name = _
        rw [TextMap.get?_insert, if_neg hne]
      · have hlt := h.inRange r'.name e' he'
        change ((s.catalogs ++ [none]).set s.catalogs.length _)[e'.client.number]? = _
        rw [List.getElem?_set_ne hlt.ne', List.getElem?_append_left hlt]

end Clientset

namespace Aggregate

variable {env : Surroundings} {α : Type} {op : RepoClient → Call α}

/-! ## The order of names -/

theorem byName_perm (rs : List Repository) : (byName rs).Perm rs := List.mergeSort_perm _ _

theorem mergeSort_ascending {α : Type} (key : α → String) (l : List α) :
    (l.mergeSort fun a b => key a ≤ key b).Pairwise fun a b => key a ≤ key b := by
  refine (List.pairwise_mergeSort ?_ ?_ l).imp fun h => of_decide_eq_true h
  · intro a b c hab hbc
    exact decide_eq_true ((of_decide_eq_true hab).trans (of_decide_eq_true hbc))
  · intro a b
    simpa using le_total (key a) (key b)

theorem byName_ascending (rs : List Repository) :
    (byName rs).Pairwise fun a b => a.name ≤ b.name := mergeSort_ascending Repository.name rs

theorem byName_of_ascending {rs : List Repository} (h : rs.Pairwise fun a b => a.name ≤ b.name) :
    byName rs = rs := List.mergeSort_of_pairwise (h.imp fun h => decide_eq_true h)

section

variable {rs : List Repository} (distinct : (rs.map Repository.name).Nodup)
include distinct

theorem byName_strictlyAscending : (byName rs).Pairwise fun a b => a.name < b.name := by
  have hne : (byName rs).Pairwise fun a b => a.name ≠ b.name :=
    List.pairwise_map.1 (((byName_perm rs).map _).nodup_iff.2 distinct)
  exact ((byName_ascending rs).and hne).imp fun h => lt_of_le_of_ne h.1 h.2

/-- Leaving repositories out leaves the order of the others. -/
theorem byName_filter (p : Repository → Bool) : byName (rs.filter p) = (byName rs).filter p := by
  refine List.Perm.eq_of_pairwise ?_ (byName_ascending _) ((byName_ascending rs).filter p)
    ((byName_perm _).trans ((byName_perm rs).filter p).symm)
  intro a b ha hb hab hba
  have ha' : a ∈ rs := (List.mem_filter.1 ((byName_perm _).subset ha)).1
  have hb' : b ∈ rs := (byName_perm rs).subset (List.mem_filter.1 hb).1
  exact List.inj_on_of_nodup_map distinct ha' hb' (le_antisymm hab hba)

end

/-! ## All of them -/

/-- All repositories answer what each answers alone. -/
theorem askAll_run_fst (hop : IgnoresRequests op) {s : Clientset} (h : IsSound s)
    {rs : List Repository} (distinct : (rs.map Repository.name).Nodup) :
    ((askAll env op rs).run s).1 = rs.map fun r => (r, outcome env op s r) := by
  induction rs generalizing s with
  | nil => rfl
  | cons r rs ih =>
    obtain ⟨hr, hrs⟩ := List.nodup_cons.1 distinct
    have hsound : IsSound ((askOne env op r).run s).2 := h.askOne op r
    have hrest := ih hsound hrs
    have hothers : ∀ r' ∈ rs,
        outcome env op ((askOne env op r).run s).2 r' = outcome env op s r' := by
      intro r' hr'
      have hne : r'.name ≠ r.name := fun heq => hr (heq ▸ List.mem_map_of_mem hr')
      exact outcome_congr hop (h.keptFor_askOne op hne)
    change (r, outcome env op s r) :: ((askAll env op rs).run ((askOne env op r).run s).2).1 = _
    rw [hrest, List.map_cons, List.map_congr_left fun r' hr' => by rw [hothers r' hr']]

/-- With one more list counted. -/
def listedOnce (s : Clientset) : Clientset := { s with lookups.lists := s.lookups.lists + 1 }

/-- Asking fails only if there is no list of repositories. -/
theorem ask_run (order : List Repository → List Repository) (op : RepoClient → Call α)
    (s : Clientset) :
    (ask env order op).run s =
      match env.source.repositories with
      | .error e => (.error e, listedOnce s)
      | .ok rs =>
        (.ok ((askAll env op (order (byName rs))).run (listedOnce s)).1,
          ((askAll env op (order (byName rs))).run (listedOnce s)).2) := by
  change StateT.run (match env.source.repositories with
    | .error e => (pure (.error e) : Lookup (Except RepoError (Answers α)))
    | .ok rs => .ok <$> askAll env op (order (byName rs))) (listedOnce s) = _
  cases env.source.repositories <;> rfl

/-- What the repositories answer if each is asked now, in an order made from that of their names. -/
def answersOf (env : Surroundings) (order : List Repository → List Repository)
    (op : RepoClient → Call α) (s : Clientset) (rs : List Repository) : Answers α :=
  (order (byName rs)).map fun r => (r, outcome env op s r)

theorem ask_run_fst (env : Surroundings) (hop : IgnoresRequests op) {s : Clientset} (h : IsSound s)
    (order : List Repository → List Repository) (horder : ∀ rs, (order rs).Perm rs)
    {rs : List Repository} (listed : env.source.repositories = .ok rs)
    (distinct : (rs.map Repository.name).Nodup) :
    ((ask env order op).run s).1 = .ok (answersOf env order op s rs) := by
  have hdistinct : ((order (byName rs)).map Repository.name).Nodup :=
    (((horder _).trans (byName_perm rs)).map _).nodup_iff.2 distinct
  have hsound : IsSound (listedOnce s) := (isInvariant_isSound env).congr h rfl rfl
  rw [ask_run, listed]
  dsimp only
  rw [askAll_run_fst hop hsound hdistinct]
  congr 1
  exact List.map_congr_left fun r _ => congrArg (r, ·) (outcome_congr hop rfl)

theorem answersOf_fst (order : List Repository → List Repository) (s : Clientset)
    (rs : List Repository) : (answersOf env order op s rs).map Prod.fst = order (byName rs) := by
  simp [answersOf, Function.comp_def]

theorem mem_answersOf {order : List Repository → List Repository}
    (horder : ∀ rs, (order rs).Perm rs) {s : Clientset} {rs : List Repository} {r : Repository}
    {x : Except RepoError α} :
    (r, x) ∈ answersOf env order op s rs ↔ r ∈ rs ∧ outcome env op s r = x := by
  have hperm : (order (byName rs)).Perm rs := (horder _).trans (byName_perm rs)
  unfold answersOf
  rw [List.mem_map]
  constructor
  · rintro ⟨r', hr', h⟩
    obtain ⟨rfl, rfl⟩ := Prod.mk.inj h
    exact ⟨hperm.subset hr', rfl⟩
  · rintro ⟨hr, rfl⟩
    exact ⟨r, hperm.symm.subset hr, rfl⟩

end Aggregate
end ClusterPackages
