import ClusterPackages.Proofs.Coherence
import ClusterPackages.Proofs.Selection
import ClusterPackages.Validation

/-! What a repository's client supplies: the version index of each package, and the version that the
catalog shows. A client may keep its catalog, but asking it for versions changes neither the catalog
that it would give next nor anything else that it answers (`versionIndex_run`, `latestVersion_run`).
So whoever asks a client for the versions of several packages may be told as asking a `Supply`. -/

namespace ClusterPackages

open Clientset

/-- What there is to know about packages, as long as nothing changes. -/
structure Supply where
  versionIndex : String → Except RepoError VersionIndex
  /-- Empty if the catalog does not list the package. -/
  latestVersion : String → Except RepoError String

namespace Supply

/-- The versions of a package: those of its version index, or the one of the catalog if there is no
version index. -/
def offered (x : Supply) (name : String) : Except RepoError (List String) :=
  match x.versionIndex name with
  | .ok index => .ok (index.versions.map (·.version))
  | .error e => if e.isNotFound then (x.latestVersion name).map ([·]) else .error e

end Supply

/-! ## Catalogs -/

namespace RepoClient

/-- A catalog that a client gave is what it gives again. -/
theorem catalogFrom_kept (web : Web) (c : RepoClient) (kept : Option Catalog) :
    c.catalogFrom web ((c.catalogFrom web kept).toOption.or kept) = c.catalogFrom web kept := by
  unfold catalogFrom fresh?
  cases c.keepsCatalog with
  | false =>
    simp
  | true =>
    cases kept with
    | some x => rfl
    | none =>
      simp only [if_true]
      cases c.served web <;> rfl

theorem versionIndex_run (web : Web) (c : RepoClient) (name : String) (t : CallState) :
    ∃ requests, (c.versionIndex web name).run t =
      (web.document c.auth VersionIndex.codec (c.versionIndexUrl name), { t with requests }) :=
  web.fetch_run c.auth VersionIndex.codec (c.versionIndexUrl name) t

theorem latestVersion_run (web : Web) (c : RepoClient) (name : String) (t : CallState) :
    ∃ requests, (c.latestVersion web name).run t =
      ((c.catalogFrom web t.catalog).map fun x => ((x.get? name).map (·.latestVersion)).getD "",
        { catalog := (c.catalogFrom web t.catalog).toOption.or t.catalog, requests }) := by
  obtain ⟨requests, hrun⟩ := c.catalog_run web t
  refine ⟨requests, ?_⟩
  unfold latestVersion
  rw [Run.bind_pure_eq, hrun]

end RepoClient

/-! ## Supplies of client sets -/

namespace Clientset

/-- What a client of a client set supplies; a stand-in supplies nothing but its error. -/
def supplyOf (env : Surroundings) (ref : ClientRef) (s : Clientset) : Supply :=
  match ref with
  | .failing e => { versionIndex := fun _ => .error e, latestVersion := fun _ => .error e }
  | .built c =>
    { versionIndex := fun name =>
        env.web.document c.client.auth VersionIndex.codec (c.client.versionIndexUrl name)
      latestVersion := fun name =>
        (c.client.catalogFrom env.web (s.callState c).catalog).map fun x =>
          ((x.get? name).map (·.latestVersion)).getD "" }

variable {env : Surroundings} {α : Type}

/-- Calls that leave the catalog that a client would give leave its supply. -/
theorem supplyOf_call (c : NumberedClient) (op : RepoClient → Call α) (s : Clientset)
    (h : ∀ t, c.client.catalogFrom env.web ((op c.client).run t).2.catalog =
      c.client.catalogFrom env.web t.catalog) :
    supplyOf env (.built c) ((call (.built c) op).run s).2 = supplyOf env (.built c) s := by
  have hcatalog : c.client.catalogFrom env.web
      (((call (.built c) op).run s).2.callState c).catalog =
        c.client.catalogFrom env.web (s.callState c).catalog := by
    rw [call_run_built]
    unfold callState
    dsimp only
    rw [List.getElem?_set_self']
    cases hn : s.catalogs[c.number]? with
    | none => rfl
    | some kept => exact h _
  unfold supplyOf
  dsimp only
  rw [hcatalog]

theorem versionIndex_run (env : Surroundings) (ref : ClientRef) (name : String) (s : Clientset) :
    ((call ref fun c => c.versionIndex env.web name).run s).1 = (supplyOf env ref s).versionIndex name ∧
      supplyOf env ref ((call ref fun c => c.versionIndex env.web name).run s).2 =
        supplyOf env ref s := by
  cases ref with
  | failing e => exact ⟨rfl, rfl⟩
  | built c =>
    constructor
    · obtain ⟨requests, hrun⟩ := c.client.versionIndex_run env.web name (s.callState c)
      rw [call_run_built, hrun, supplyOf]
    · refine supplyOf_call c _ s fun t => ?_
      obtain ⟨requests, hrun⟩ := c.client.versionIndex_run env.web name t
      rw [hrun]

theorem latestVersion_run (env : Surroundings) (ref : ClientRef) (name : String) (s : Clientset) :
    ((call ref fun c => c.latestVersion env.web name).run s).1 =
        (supplyOf env ref s).latestVersion name ∧
      supplyOf env ref ((call ref fun c => c.latestVersion env.web name).run s).2 =
        supplyOf env ref s := by
  cases ref with
  | failing e => exact ⟨rfl, rfl⟩
  | built c =>
    constructor
    · obtain ⟨requests, hrun⟩ := c.client.latestVersion_run env.web name (s.callState c)
      rw [call_run_built, hrun, supplyOf]
    · refine supplyOf_call c _ s fun t => ?_
      obtain ⟨requests, hrun⟩ := c.client.latestVersion_run env.web name t
      rw [hrun]
      exact c.client.catalogFrom_kept env.web t.catalog

end Clientset
end ClusterPackages
