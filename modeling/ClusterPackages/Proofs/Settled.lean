import ClusterPackages.Proofs.Apply
import ClusterPackages.Proofs.CoherentPlan
import ClusterPackages.Proofs.Upgrade

/-! Updates settle. A package that a plan updated wants the version that its repository shows, so
a second plan, made after the first was applied, leaves it alone. -/

namespace ClusterPackages

open PackageStore Clientset

/-! ## Packages read off the cluster -/

/-- Packages that a selection reads off the cluster are as they are stored there. -/
theorem PackageSelection.stored?_of_resolved {s : PackageStore} (h : s.WellKeyed)
    {sel : PackageSelection} (hsel : ∀ ps, sel ≠ .exact ps) {ps : List InstalledPackage}
    (hres : sel.resolved s.toSource = .ok ps) {p : InstalledPackage} (hp : p ∈ ps) :
    s.stored? p = some p := by
  cases sel with
  | exact packages => exact absurd rfl (hsel packages)
  | allClusterPackages =>
    obtain rfl := Except.ok.inj hres
    obtain ⟨e, he, rfl⟩ := List.mem_map.1 hp
    exact h.stored?_of_mem_cluster he
  | allPackages ns =>
    obtain rfl := Except.ok.inj hres
    obtain ⟨d, hd, hp⟩ := List.mem_flatMap.1 hp
    obtain ⟨e, he, rfl⟩ := List.mem_map.1 hp
    have hin : d ∈ s.packages := by
      cases ns with
      | none => exact hd
      | some ns => exact (List.mem_filter.1 hd).1
    exact h.stored?_of_mem_inside hin he
  | clusterPackagesNamed names =>
    obtain ⟨name, -, hname⟩ := exists_of_mem_mapM hres hp
    cases hget : s.clusterPackages.get? name with
    | none => simp [toSource, hget] at hname
    | some q =>
      simp only [toSource, hget, Except.ok.injEq] at hname
      exact hname ▸ h.stored?_of_mem_cluster (TextMap.mem_of_get?_eq_some hget)
  | packagesNamed names =>
    obtain ⟨n, -, hn⟩ := exists_of_mem_mapM hres hp
    cases hget : (s.packages.get? n.namespace).bind (TextMap.get? n.name) with
    | none => simp [toSource, hget] at hn
    | some q =>
      simp only [toSource, hget, Except.ok.injEq] at hn
      obtain ⟨m, hin, hq⟩ := Option.bind_eq_some_iff.1 hget
      exact hn ▸ h.stored?_of_mem_inside (TextMap.mem_of_get?_eq_some hin)
        (TextMap.mem_of_get?_eq_some hq)

namespace Transaction

/-! ## Planned updates -/

/-- Updates that a plan makes, or would make if no conflict stood against them. -/
def Plans (t : Transaction) (i : UpdateItem) : Prop :=
  i ∈ t.items ∧ i.version ≠ "" ∨ ∃ c ∈ t.conflictItems, c.item = i

/-- An update of a stored object to the latest version that its repository shows, which is newer. -/
structure IsOwed (env : Surroundings) (store : PackageStore) (i : UpdateItem) : Prop where
  stored : store.stored? i.package = some i.package
  latest : latestOf env i.package = some i.version
  newer : isUpgradable i.package.desiredVersion i.version = true

/-- A planned update comes from a finding that was validated. -/
theorem exists_finding_of_plans {isExplicit : Bool} {fs : List Finding} {i : UpdateItem}
    (h : (fs.foldl (take isExplicit) {}).Plans i) :
    ∃ f ∈ fs, f.validation.isSome = true ∧ i = { package := f.package, version := f.latest } := by
  rw [foldl_take] at h
  rcases h with ⟨hi, hversion⟩ | ⟨c, hc, rfl⟩
  · obtain ⟨f, hf, hi⟩ := List.mem_flatMap.1 hi
    refine ⟨f, hf, ?_⟩
    unfold Finding.items at hi
    cases hv : f.validation with
    | none =>
      simp only [hv] at hi
      split_ifs at hi
      · exact absurd (congrArg UpdateItem.version (List.mem_singleton.1 hi)) hversion
      · cases hi
    | some v =>
      simp only [hv] at hi
      split_ifs at hi
      · exact ⟨rfl, List.mem_singleton.1 hi⟩
      · cases hi
  · obtain ⟨f, hf, hc⟩ := List.mem_flatMap.1 hc
    refine ⟨f, hf, ?_⟩
    unfold Finding.conflictItems at hc
    cases hv : f.validation with
    | none => simp [hv] at hc
    | some v =>
      simp only [hv] at hc
      split_ifs at hc
      · cases hc
      · exact ⟨rfl, congrArg ConflictItem.item (List.mem_singleton.1 hc)⟩

variable {env : Surroundings} {validate : DependencyValidator} {who : List RepoClient}
  {store : PackageStore} {selections : List PackageSelection} {s s' : PlanState} {t : Transaction}

/-- All that a plan over the cluster makes is owed. -/
theorem isOwed_of_plans (consistent : env.source.IsConsistent) (respects : validate.Respects env)
    (keyed : store.WellKeyed) (read : ∀ sel ∈ selections, ∀ ps, sel ≠ .exact ps)
    (coherent : Coherent env who s.repos)
    (plan : (prepare env store.toSource validate selections).run s = (.ok t, s')) :
    (∀ i, t.Plans i → IsOwed env store i) ∧ ∃ who', Coherent env who' s'.repos := by
  obtain ⟨pss, fs, hpss, hfs, rfl⟩ := (prepare_eq_ok_iff _ _ _ _ _).1 plan
  rw [← (PackageSelection.getAll_run store.toSource selections s).2] at coherent
  obtain ⟨hpackages, hcurrent, who', -, hcoherent⟩ := hfs.isCurrent consistent respects coherent
  refine ⟨fun i hi => ?_, who', hcoherent⟩
  obtain ⟨f, hf, hvalidated, rfl⟩ := exists_finding_of_plans hi
  have hmem : f.package ∈ pss.flatten := hpackages ▸ List.mem_map_of_mem hf
  obtain ⟨ps, hps, hp⟩ := List.mem_flatten.1 hmem
  obtain ⟨sel, hsel, hres⟩ := exists_of_mem_mapM hpss hps
  exact ⟨PackageSelection.stored?_of_resolved keyed (read sel hsel) hres hp, (hcurrent f hf).latest,
    (hcurrent f hf).newer ▸ hvalidated⟩

/-! ## A second plan -/

theorem latestOf_moved (env : Surroundings) (c : Bool) (v : String) (p : InstalledPackage) :
    latestOf env (moved c v p) = latestOf env p := by
  cases c <;> rfl

theorem IsOwed.eq_of_isSamePlace {i j : UpdateItem} (hi : IsOwed env store i)
    (hj : IsOwed env store j) (h : IsSamePlace i.package j.package) : i = j := by
  have hpackage : i.package = j.package :=
    Option.some.inj (hi.stored.symm.trans ((stored?_congr store h).trans hj.stored))
  have hversion : i.version = j.version :=
    Option.some.inj (hi.latest.symm.trans (hpackage ▸ hj.latest))
  cases i
  cases j
  simp_all

/-- Where an owed update was among those written, the object wants its version. -/
theorem stored?_writes_of_isOwed (keyed : store.WellKeyed) {us : List UpdateItem}
    (owed : ∀ u ∈ us, IsOwed env store u) {i : UpdateItem} (hi : i ∈ us) :
    (store.writes us).stored? i.package = some (moved store.converges i.version i.package) := by
  rw [stored?_writes keyed]
  cases hlast : lastAt us i.package with
  | none => exact absurd (IsSamePlace.refl _) ((lastAt_eq_none_iff us i.package).1 hlast i hi)
  | some u =>
    obtain ⟨hu, hplace⟩ := mem_of_lastAt hlast
    rw [(owed u hu).eq_of_isSamePlace (owed i hi) hplace]
    simp only [(owed i hi).stored, Option.map_some]

/-- An object that wants what its repository shows is owed nothing. -/
theorem not_isOwed_of_moved {store' : PackageStore} {c : Bool} {i j : UpdateItem}
    (hi : latestOf env i.package = some i.version)
    (hstored : store'.stored? i.package = some (moved c i.version i.package))
    (h : IsSamePlace j.package i.package) : ¬ IsOwed env store' j := by
  intro hj
  have hpackage : j.package = moved c i.version i.package :=
    Option.some.inj (hj.stored.symm.trans ((stored?_congr store' h).trans hstored))
  have hversion : j.version = i.version := by
    have hlatest := hj.latest
    rw [hpackage, latestOf_moved, hi] at hlatest
    exact (Option.some.inj hlatest).symm
  have hnewer := hj.newer
  rw [hpackage, desiredVersion_moved, hversion, isUpgradable_self] at hnewer
  cases hnewer

/-- No oscillation: what a plan updated is not planned again once that plan was applied. -/
theorem applied_updates_settle (env : Surroundings) (consistent : env.source.IsConsistent)
    (store : PackageStore) (keyed : store.WellKeyed) (validate₁ validate₂ : DependencyValidator)
    (respects₁ : validate₁.Respects env) (respects₂ : validate₂.Respects env)
    (selections₁ selections₂ : List PackageSelection)
    (read₁ : ∀ sel ∈ selections₁, ∀ ps, sel ≠ .exact ps)
    (read₂ : ∀ sel ∈ selections₂, ∀ ps, sel ≠ .exact ps)
    (who : List RepoClient) (s₁ s₁' s₂' : PlanState) (coherent : Coherent env who s₁.repos)
    (t₁ t₂ : Transaction) (isBlocking : Bool) (asked asked' : PackageCounts)
    (ps : List InstalledPackage) (w : Update.State)
    (planned : (prepare env store.toSource validate₁ selections₁).run s₁ = (.ok t₁, s₁'))
    (applied : (Update.apply isBlocking t₁).run { store, asked } = (.ok ps, w))
    (plannedAgain : (prepare env w.store.toSource validate₂ selections₂).run
      { s₁' with asked := asked' } = (.ok t₂, s₂')) :
    ∀ i ∈ t₁.items, i.version ≠ "" →
      (∀ j ∈ t₂.items, IsSamePlace j.package i.package → j.version = "") ∧
      ∀ c ∈ t₂.conflictItems, ¬ IsSamePlace c.item.package i.package := by
  intro i hi hversion
  obtain ⟨howed, who', hcoherent⟩ := isOwed_of_plans consistent respects₁ keyed read₁ coherent planned
  obtain ⟨-, hcluster, hpackages⟩ := Update.taken_of_apply isBlocking keyed applied
  set us := t₁.items.filter UpdateItem.isRequired with hus
  have howedAll : ∀ u ∈ us, IsOwed env store u := fun u hu =>
    howed u (.inl ⟨(List.mem_filter.1 hu).1,
      by simpa [UpdateItem.isRequired] using (List.mem_filter.1 hu).2⟩)
  have hkeyed : w.store.WellKeyed := (keyed.writes us).of_eq hcluster hpackages
  have hstored : w.store.stored? i.package = some (moved store.converges i.version i.package) := by
    rw [← stored?_writes_of_isOwed keyed howedAll
      (List.mem_filter.2 ⟨hi, by simpa [UpdateItem.isRequired] using hversion⟩)]
    unfold stored?
    rw [hcluster, hpackages]
  have hcoherent' : Coherent env who' ({ s₁' with asked := asked' } : PlanState).repos := hcoherent
  obtain ⟨howed₂, -⟩ := isOwed_of_plans consistent respects₂ hkeyed read₂ hcoherent' plannedAgain
  have hsettled (j : UpdateItem) (hplace : IsSamePlace j.package i.package) : ¬ t₂.Plans j :=
    fun hj => not_isOwed_of_moved (howed i (.inl ⟨hi, hversion⟩)).latest hstored hplace (howed₂ j hj)
  constructor
  · intro j hj hplace
    by_contra hne
    exact hsettled j hplace (.inl ⟨hj, hne⟩)
  · intro c hc hplace
    exact hsettled c.item hplace (.inr ⟨c, hc, rfl⟩)

/-- One package, named explicitly, is updated by the first plan and up to date in the second. -/
theorem applied_updates_settle_named :
    let web : Web := fun url =>
      .answer 200 none (some (Text.encode
        (if url = "http://h/index.yaml" then "packages:\n- name: a\n  latestVersion: 2.0.0\n"
        else "name: a\n").toList))
    let r : Repository :=
      Repository.setDefault true { metadata := { name := "main" }, spec := { url := "http://h" } }
    let env : Surroundings := { settings := {}, source := (Inventory.putRepository {} r).toSource, web }
    let a : InstalledPackage :=
      { kind := .clusterPackage, metadata := { name := "a" }
        spec := { packageInfo := { name := "a", version := "1.0.0" } } }
    let store := ofList [a]
    let plan (store : PackageStore) :=
      prepare env store.toSource (.ofCluster env store.toSource) [.clusterPackagesNamed ["a"]]
    ∃ t₁ s₁' ps w t₂ s₂', (plan store).run {} = (.ok t₁, s₁') ∧ t₁.items = [⟨a, "2.0.0"⟩] ∧
      (Update.apply false t₁).run { store } = (.ok ps, w) ∧
      (plan w.store).run s₁' = (.ok t₂, s₂') ∧ t₂.items.length = 1 ∧
      ∀ j ∈ t₂.items, IsSamePlace j.package a → j.version = "" := by
  intro web r env a store plan
  have consistent : env.source.IsConsistent :=
    (Inventory.wellKeyed_empty.putRepository r).isConsistent
  have read : ∀ sel ∈ [PackageSelection.clusterPackagesNamed ["a"]], ∀ ps, sel ≠ .exact ps := by simp
  have planned := Run.eq_ok_of_toOption (x := (plan store).run {})
    (a := { items := [⟨a, "2.0.0"⟩] }) (by decide +kernel)
  have applied := Run.eq_ok_of_toOption
    (x := (Update.apply false { items := [⟨a, "2.0.0"⟩] }).run { store })
    (a := [moved false "2.0.0" a]) (by decide +kernel)
  have plannedAgain := Run.eq_ok_of_toOption
    (x := (plan ((Update.apply false { items := [⟨a, "2.0.0"⟩] }).run { store }).2.store).run
      ((plan store).run {}).2)
    (a := { items := [⟨moved false "2.0.0" a, ""⟩] }) (by decide +kernel)
  generalize ((plan store).run {}).2 = s₁' at planned plannedAgain
  generalize ((Update.apply false { items := [⟨a, "2.0.0"⟩] }).run { store }).2 = w
    at applied plannedAgain
  refine ⟨_, s₁', _, w, _, _, planned, rfl, applied, plannedAgain, rfl, ?_⟩
  have hsettle := applied_updates_settle env consistent store (wellKeyed_ofList [a])
    (.ofCluster env store.toSource) (.ofCluster env w.store.toSource)
    (DependencyValidator.ofCluster_respects consistent _)
    (DependencyValidator.ofCluster_respects consistent _) _ _ read read [] {} s₁' _
    (coherent_empty env) _ _ false {} s₁'.asked _ w planned applied plannedAgain
  exact (hsettle ⟨a, "2.0.0"⟩ (by simp) (by simp)).1

end Transaction
end ClusterPackages
