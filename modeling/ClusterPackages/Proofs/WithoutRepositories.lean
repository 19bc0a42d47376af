import ClusterPackages.Proofs.Installable

/-! Validating without repositories. The default repository's client is looked up before any dependency
is, but a lookup asks for no document and never fails, and a dependency that is installed asks the
client nothing. So a manifest whose dependencies are all installed is validated alike whatever the
repositories, their secrets, their pages and the clients at hand are. -/

namespace ClusterPackages

/-! ## Lookups -/

namespace Clientset

theorem takenIn_requests (s : Clientset) (r : Repository) (result : Except RepoError RepoClient) :
    (takenIn s r result).2.requests = s.requests := by
  cases result <;> rfl

theorem forRepo_requests (env : Surroundings) (r : Repository) (s : Clientset) :
    ((forRepo env r).run s).2.requests = s.requests := by
  rw [forRepo_run]
  cases s.clientFor r with
  | some c => rfl
  | none => exact takenIn_requests _ r _

/-- A lookup of the default repository's client asks for no document, whatever becomes of it. -/
theorem forDefault_requests (env : Surroundings) (s : Clientset) :
    ((forDefault env).run s).2.requests = s.requests := by
  have hlisted : ((defaultRepository env).run s).2.requests = s.requests := by
    unfold defaultRepository listRepositories
    cases env.source.repositories <;> rfl
  unfold forDefault
  rw [StateT.run_bind]
  generalize (defaultRepository env).run s = listed at hlisted ⊢
  obtain ⟨r | e, t⟩ := listed
  · exact hlisted
  · exact (forRepo_requests env e t).trans hlisted

end Clientset

namespace DependencyValidator

/-! ## Checks -/

variable {source : PackageSource}

def afterGets (n : ℕ) (s : PlanState) : PlanState :=
  { s with asked := { s.asked with gets := s.asked.gets + n } }

/-- The check of an installed dependency asks the cluster once, and its client nothing. -/
theorem check_of_found (env : Surroundings) (ref : ClientRef) {d : Dependency} {p : InstalledPackage}
    (found : source.clusterPackage d.name = .ok p) (s : PlanState) :
    (check env source ref d).run s = (.ok (none, conflict? source d), afterGets 1 s) := by
  unfold check conflict?
  rw [Run.bind_of_ok (Plan.countGet_run s), found]
  rfl

theorem checkAll_of_installed (env : Surroundings) (ref : ClientRef) {ds : List Dependency}
    (installed : ∀ d ∈ ds, ∃ p, source.clusterPackage d.name = .ok p) (s : PlanState) :
    (checkAll env source ref ds).run s =
      (.ok (ds.map fun d => (none, conflict? source d)), afterGets ds.length s) := by
  induction ds generalizing s with
  | nil => rfl
  | cons d ds ih =>
    obtain ⟨⟨p, found⟩, hrest⟩ := List.forall_mem_cons.1 installed
    rw [checkAll, Run.bind_of_ok (check_of_found env ref found s), Run.bind_pure_eq, ih hrest]
    have hgets : afterGets ds.length (afterGets 1 s) = afterGets (d :: ds).length s := by
      simp only [afterGets, List.length_cons, Nat.add_comm ds.length, Nat.add_assoc]
    rw [hgets]
    rfl

/-! ## Validations -/

/-- What a validation leaves when all dependencies are installed. -/
def afterLookup (env : Surroundings) (m : Manifest) (s : PlanState) : PlanState :=
  if m.dependencies = [] then s
  else afterGets m.dependencies.length { s with repos := ((Clientset.forDefault env).run s.repos).2 }

theorem afterLookup_requests (env : Surroundings) (m : Manifest) (s : PlanState) :
    (afterLookup env m s).repos.requests = s.repos.requests := by
  unfold afterLookup
  split_ifs
  · rfl
  · exact Clientset.forDefault_requests env s.repos

theorem ofCluster_run_of_installed (env : Surroundings) {m : Manifest} (version : String)
    (installed : ∀ d ∈ m.dependencies, ∃ p, source.clusterPackage d.name = .ok p) (s : PlanState) :
    (ofCluster env source m version).run s =
      (.ok (.ofParts [] (m.dependencies.filterMap (conflict? source))), afterLookup env m s) := by
  unfold ofCluster afterLookup
  by_cases hnone : m.dependencies = []
  · rw [hnone]
    rfl
  · rw [if_neg (by simpa using hnone), if_neg hnone, Run.bind_of_ok (Plan.onRepos_run _ s),
      Run.bind_pure_eq, checkAll_of_installed env _ installed]
    simp only [Except.map, List.filterMap_map, Function.comp_def, List.filterMap_none]

/-- With all dependencies installed a validation needs no repository. It ends well and says the same
whatever there is of repositories, secrets, documents, clients and catalogs; it asks for no document,
and would leave the same behind if every document were another. -/
theorem installed_need_no_repository (source : PackageSource) (m : Manifest)
    (installed : ∀ d ∈ m.dependencies, ∃ p, source.clusterPackage d.name = .ok p) :
    ∃ v, (v.requirements = [] ∧ ∀ c, c ∈ v.conflicts ↔
        ∃ d ∈ m.dependencies, ∃ p, source.clusterPackage d.name = .ok p ∧
          installedConflict? d p = some c) ∧
      ∀ (env : Surroundings) (version : String) (s : PlanState), ∃ t,
        (ofCluster env source m version).run s = (.ok v, t) ∧
        t.repos.requests = s.repos.requests ∧
        ∀ web, (ofCluster { env with web } source m version).run s = (.ok v, t) := by
  refine ⟨.ofParts [] (m.dependencies.filterMap (conflict? source)), ⟨rfl, fun c => ?_⟩,
    fun env version s => ⟨afterLookup env m s, ofCluster_run_of_installed env version installed s,
      afterLookup_requests env m s, fun web => ?_⟩⟩
  · refine List.mem_filterMap.trans (exists_congr fun d => and_congr_right fun hd => ?_)
    obtain ⟨p, hp⟩ := installed d hd
    simp [conflict?, hp, Except.toOption]
  · exact ofCluster_run_of_installed { env with web } version installed s

/-- One dependency is met and one is not. In one cluster two repositories are marked as default; in the
other the only one needs a secret that is not there. -/
theorem installed_need_no_repository_two :
    let y : InstalledPackage :=
      { kind := .clusterPackage, metadata := { name := "y" }
        spec := { packageInfo := { name := "y", version := "v3.1.0" } } }
    let m : Manifest := { name := "app", dependencies := [⟨"y", "^3"⟩, ⟨"y", "<3"⟩] }
    let repository (name : String) (auth : Option AuthSpec) : Repository :=
      Repository.setDefault true { metadata := { name := name }, spec := { url := "http://h", auth } }
    let among (i : Inventory) : Surroundings :=
      { settings := {}, source := i.toSource, web := .ofPages true [] }
    let ambiguous := among ((({} : Inventory).putRepository (repository "a" none)).putRepository
      (repository "b" none))
    let locked := among (({} : Inventory).putRepository (repository "a"
      (some { bearer := some { tokenSecretRef := some ⟨"absent", "token"⟩ } })))
    let source := (PackageStore.ofList [y]).toSource
    (∀ d ∈ m.dependencies, ∃ p, source.clusterPackage d.name = .ok p) ∧
      ambiguous.source.repositories.toOption.map (fun rs => (rs.filter Repository.isDefault).length) =
        some 2 ∧
      (locked.source.secret "absent" locked.settings.secretNamespace).isOk = false ∧
      ∃ v t t', v.conflicts.length = 1 ∧
        (ofCluster ambiguous source m "").run {} = (.ok v, t) ∧ t.repos.requests = [] ∧
        (ofCluster locked source m "").run {} = (.ok v, t') ∧ t'.repos.requests = [] := by
  intro y m repository among ambiguous locked source
  have installed : ∀ d ∈ m.dependencies, ∃ p, source.clusterPackage d.name = .ok p := by
    have hy : source.clusterPackage "y" = .ok y := rfl
    simp [m, hy]
  refine ⟨installed, by decide +kernel, rfl, ?_⟩
  obtain ⟨v, -, h⟩ := installed_need_no_repository source m installed
  obtain ⟨t, ht, hrequests, -⟩ := h ambiguous "" {}
  obtain ⟨t', ht', hrequests', -⟩ := h locked "" {}
  refine ⟨v, t, t', ?_, ht, hrequests, ht', hrequests'⟩
  have hrun : ((ofCluster ambiguous source m "").run {}).1.toOption.map
      (fun v => v.conflicts.length) = some 1 := by decide +kernel
  rw [ht] at hrun
  exact Option.some.inj hrun

end DependencyValidator
end ClusterPackages
