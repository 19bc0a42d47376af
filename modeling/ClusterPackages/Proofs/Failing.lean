import ClusterPackages.Proofs.Entries
import ClusterPackages.Proofs.Stepwise

/-! How planning fails. If selections fail then all of them are told and nobody asks a repository; if
all resolve then packages are looked at one after the other, and the first that fails is what the
plan fails with. Either way packages are only read. -/

namespace ClusterPackages

/-! ## Reading packages -/

/-- A plan that neither updates a package nor watches one. Nothing else changes what a cluster keeps. -/
def Plan.OnlyReads {α : Type} (x : Plan α) : Prop :=
  ∀ s, (x.run s).2.asked.updates = s.asked.updates ∧ (x.run s).2.asked.watches = s.asked.watches

namespace Plan

theorem OnlyReads.bind {α β : Type} {x : Plan α} {f : α → Plan β} (hx : OnlyReads x)
    (hf : ∀ a, OnlyReads (f a)) : OnlyReads (x >>= f) :=
  Run.bind_moves (R := fun s t : PlanState =>
      t.asked.updates = s.asked.updates ∧ t.asked.watches = s.asked.watches)
    (fun hst htu => ⟨htu.1.trans hst.1, htu.2.trans hst.2⟩) hx hf

theorem isStepwise_onlyReads (env : Surroundings) :
    IsStepwise env (fun _ => True) fun x => OnlyReads x where
  repo _ := trivial
  value _ _ := ⟨rfl, rfl⟩
  failure _ _ := ⟨rfl, rfl⟩
  sequel := OnlyReads.bind
  countGet _ := ⟨rfl, rfl⟩
  forDefault _ := ⟨rfl, rfl⟩
  forName _ _ := ⟨rfl, rfl⟩
  call _ _ _ := ⟨rfl, rfl⟩

end Plan

theorem DependencyValidator.ofCluster_onlyReads (env : Surroundings) (source : PackageSource)
    (m : Manifest) (version : String) : (ofCluster env source m version).OnlyReads :=
  ofCluster_stepwise (Plan.isStepwise_onlyReads env) (fun _ _ _ => trivial) m version

namespace PackageSelection

theorem getEach_onlyReads {α : Type} (get : α → Except ClusterError InstalledPackage)
    (names : List α) : (getEach get names).OnlyReads := by
  induction names with
  | nil => exact fun _ => ⟨rfl, rfl⟩
  | cons n names ih =>
    have hcount : Plan.countGet.OnlyReads := fun _ => ⟨rfl, rfl⟩
    have hanswer : (Plan.answer (get n)).OnlyReads := fun _ => ⟨rfl, rfl⟩
    exact hcount.bind fun _ => hanswer.bind fun p => ih.bind fun ps _ => ⟨rfl, rfl⟩

theorem get_onlyReads (source : PackageSource) (sel : PackageSelection) :
    (sel.get source).OnlyReads := by
  cases sel with
  | exact packages => exact fun _ => ⟨rfl, rfl⟩
  | allClusterPackages => exact fun _ => ⟨rfl, rfl⟩
  | allPackages ns => exact fun _ => ⟨rfl, rfl⟩
  | clusterPackagesNamed names => exact getEach_onlyReads _ names
  | packagesNamed names => exact getEach_onlyReads _ names

theorem getAll_onlyReads (source : PackageSource) (sels : List PackageSelection) (s : PlanState) :
    ((getAll source sels).run s).2.asked.updates = s.asked.updates ∧
      ((getAll source sels).run s).2.asked.watches = s.asked.watches := by
  induction sels generalizing s with
  | nil => exact ⟨rfl, rfl⟩
  | cons sel sels ih =>
    obtain ⟨hupdates, hwatches⟩ := get_onlyReads source sel s
    obtain ⟨hupdates', hwatches'⟩ := ih ((sel.get source).run s).2
    exact ⟨hupdates'.trans hupdates, hwatches'.trans hwatches⟩

end PackageSelection

namespace Transaction

variable {env : Surroundings} {validate : DependencyValidator}

theorem prepare_onlyReads (validates : ∀ m version, (validate m version).OnlyReads)
    (source : PackageSource) (selections : List PackageSelection) :
    (prepare env source validate selections).OnlyReads := by
  intro s
  have hanswer (x : Except ClusterError (List InstalledPackage)) : (Plan.answer x).OnlyReads :=
    fun _ => ⟨rfl, rfl⟩
  have hadd (ps : List InstalledPackage) : (addPackages env validate
      (selections.any PackageSelection.isExplicit) {} ps).OnlyReads :=
    addPackages_stepwise (Plan.isStepwise_onlyReads env) validates (fun _ _ => trivial) _ {} ps
  obtain ⟨hupdates, hwatches⟩ := PackageSelection.getAll_onlyReads source selections s
  rw [prepare_run]
  obtain ⟨hupdates', hwatches'⟩ := (hanswer _).bind hadd
    ((PackageSelection.getAll source selections).run s).2
  exact ⟨hupdates'.trans hupdates, hwatches'.trans hwatches⟩

/-! ## One package -/

/-- The ways in which a package fails, each with its error. -/
inductive Fails (env : Surroundings) (validate : DependencyValidator) (s : PlanState)
    (p : InstalledPackage) : ClusterError → PlanState → Prop
  /-- There is no client for the package. -/
  | unreachable {e s₁}
      (lookup : (Plan.onRepos (Clientset.forPackage env p)).run s = (.ok (.failing e), s₁)) :
      Fails env validate s p (.repo e) s₁
  | unread {c s₁ e s₂}
      (lookup : (Plan.onRepos (Clientset.forPackage env p)).run s = (.ok (.built c), s₁))
      (failed : (Plan.onClient (Clientset.call (.built c) (RepoClient.catalog env.web))).run s₁ =
        (.error (.repo e), s₂)) :
      Fails env validate s p (.repo e) s₂
  | unlisted {repo s₁ catalog s₂}
      (lookup : (Plan.onRepos (Clientset.forPackage env p)).run s = (.ok repo, s₁))
      (read : (Plan.onClient (Clientset.call repo (RepoClient.catalog env.web))).run s₁ =
        (.ok catalog, s₂))
      (absent : catalog.get? p.packageName = none) :
      Fails env validate s p (.packageNotFoundInIndex p.packageName (repositoryLabel p)) s₂
  | unserved {repo s₁ catalog s₂ entry e s₃}
      (lookup : (Plan.onRepos (Clientset.forPackage env p)).run s = (.ok repo, s₁))
      (read : (Plan.onClient (Clientset.call repo (RepoClient.catalog env.web))).run s₁ =
        (.ok catalog, s₂))
      (first : catalog.get? p.packageName = some entry)
      (newer : isUpgradable p.desiredVersion entry.latestVersion = true)
      (failed : (Plan.onClient (Clientset.call repo fun c =>
        c.manifest env.web p.packageName entry.latestVersion)).run s₂ = (.error (.repo e), s₃)) :
      Fails env validate s p (.repo e) s₃
  | unvalidated {repo s₁ catalog s₂ entry manifest s₃ e s₄}
      (lookup : (Plan.onRepos (Clientset.forPackage env p)).run s = (.ok repo, s₁))
      (read : (Plan.onClient (Clientset.call repo (RepoClient.catalog env.web))).run s₁ =
        (.ok catalog, s₂))
      (first : catalog.get? p.packageName = some entry)
      (newer : isUpgradable p.desiredVersion entry.latestVersion = true)
      (fetched : (Plan.onClient (Clientset.call repo fun c =>
        c.manifest env.web p.packageName entry.latestVersion)).run s₂ = (.ok manifest, s₃))
      (failed : (validate manifest entry.latestVersion).run s₃ = (.error e, s₄)) :
      Fails env validate s p e s₄

theorem lookAt_eq_error_iff (p : InstalledPackage) (s s' : PlanState) (e : ClusterError) :
    (lookAt env validate p).run s = (.error e, s') ↔ Fails env validate s p e s' := by
  unfold lookAt
  constructor
  · intro h
    obtain ⟨repo, s₁, lookup, h⟩ := (Run.bind_eq_error_iff.1 h).resolve_left fun hlookup => by
      cases hlookup
    rcases Run.bind_eq_error_iff.1 h with failed | ⟨catalog, s₂, read, h⟩
    · obtain ⟨e', rfl⟩ := eq_repo_of_onClient failed
      cases repo with
      | failing e'' =>
        cases failed
        exact .unreachable lookup
      | built c => exact .unread lookup failed
    cases first : catalog.get? p.packageName with
    | none =>
      rw [first] at h
      cases h
      exact .unlisted lookup read first
    | some entry =>
      simp only [first] at h
      split_ifs at h with newer
      · rcases Run.bind_eq_error_iff.1 h with failed | ⟨manifest, s₃, fetched, h⟩
        · obtain ⟨e', rfl⟩ := eq_repo_of_onClient failed
          exact .unserved lookup read first newer failed
        · rcases Run.bind_eq_error_iff.1 h with failed | ⟨v, s₄, -, h⟩
          · exact .unvalidated lookup read first newer fetched failed
          · cases h
      · cases h
  · intro h
    cases h with
    | unreachable lookup =>
      rw [Run.bind_of_ok lookup]
      rfl
    | unread lookup failed => rw [Run.bind_of_ok lookup, Run.bind_of_error failed]
    | unlisted lookup read absent =>
      rw [Run.bind_of_ok lookup, Run.bind_of_ok read, absent]
      rfl
    | unserved lookup read first newer failed =>
      rw [Run.bind_of_ok lookup, Run.bind_of_ok read]
      simp only [first, newer, if_true]
      rw [Run.bind_of_error failed]
    | unvalidated lookup read first newer fetched failed =>
      rw [Run.bind_of_ok lookup, Run.bind_of_ok read]
      simp only [first, newer, if_true]
      rw [Run.bind_of_ok fetched, Run.bind_of_error failed]

/-! ## All of them -/

/-- Planning looks at packages up to the first that fails. -/
theorem addPackages_eq_error_iff (isExplicit : Bool) (t : Transaction) (ps : List InstalledPackage)
    (s s' : PlanState) (e : ClusterError) :
    (addPackages env validate isExplicit t ps).run s = (.error e, s') ↔
      ∃ before p after fs s₁, ps = before ++ p :: after ∧ Findings env validate s before fs s₁ ∧
        Fails env validate s₁ p e s' := by
  have hmapM : (addPackages env validate isExplicit t ps).run s = (.error e, s') ↔
      (ps.mapM (lookAt env validate)).run s = (.error e, s') := by
    rw [addPackages_eq, ← bind_pure_comp, Run.bind_eq_error_iff]
    refine or_iff_left ?_
    rintro ⟨fs, s₁, -, h⟩
    cases h
  rw [hmapM, Run.mapM_eq_error_iff]
  exact exists₅_congr fun before p after fs s₁ => and_congr_right' <|
    and_congr (mapM_lookAt_eq_ok_iff before s s₁ fs) (lookAt_eq_error_iff p s₁ s' e)

/-! ## Plans -/

theorem prepare_of_failures {source : PackageSource} {selections : List PackageSelection}
    {e : ClusterError}
    (h : ClusterError.combine (failures (selections.map (PackageSelection.resolved source))) = some e)
    (s : PlanState) : (prepare env source validate selections).run s =
      (.error e, ((PackageSelection.getAll source selections).run s).2) := by
  have hselected : selected (selections.map (PackageSelection.resolved source)) = .error e := by
    rw [selected_eq, h]
    rfl
  rw [prepare_run, hselected]
  exact Run.bind_of_error (Plan.answer_run _ _)

/-- If selections fail then the plan fails with all their errors and no repository is asked. If all
resolve then it fails exactly if a package does, with the first that does. Whether it fails or not,
packages are only read. -/
theorem prepare_fails_at_first (env : Surroundings) (source : PackageSource)
    (validate : DependencyValidator) (selections : List PackageSelection) (s : PlanState) :
    let plan := prepare env source validate selections
    let errors := failures (selections.map (PackageSelection.resolved source))
    let s₀ := ((PackageSelection.getAll source selections).run s).2
    s₀.repos = s.repos ∧
    (∀ e, errors = [e] → plan.run s = (.error e, s₀)) ∧
    (2 ≤ errors.length → plan.run s = (.error (.multiple errors), s₀)) ∧
    (errors = [] → ∃ pss, selections.mapM (PackageSelection.resolved source) = .ok pss ∧
      ∀ e s', plan.run s = (.error e, s') ↔
        ∃ before p after fs s₁, pss.flatten = before ++ p :: after ∧
          Findings env validate s₀ before fs s₁ ∧ Fails env validate s₁ p e s') ∧
    ((∀ m version, (validate m version).OnlyReads) →
      (plan.run s).2.asked.updates = s.asked.updates ∧
        (plan.run s).2.asked.watches = s.asked.watches) ∧
    ∀ m version, (DependencyValidator.ofCluster env source m version).OnlyReads := by
  intro plan errors s₀
  refine ⟨(PackageSelection.getAll_run source selections s).2, fun e he => ?_, fun hlength => ?_,
    fun hnone => ?_, fun validates => prepare_onlyReads validates source selections s,
    DependencyValidator.ofCluster_onlyReads env source⟩
  · exact prepare_of_failures (congrArg ClusterError.combine he) s
  · refine prepare_of_failures ?_ s
    change ClusterError.combine errors = some (.multiple errors)
    rcases errors with _ | ⟨e, _ | ⟨e', es⟩⟩
    · simp at hlength
    · simp at hlength
    · rfl
  · obtain ⟨pss, hresolved⟩ := (failures_eq_nil_iff _).1 hnone
    have hselected : selected (selections.map (PackageSelection.resolved source)) = .ok pss.flatten :=
      (selected_eq_ok_iff _ _).2 ⟨pss, hresolved, rfl⟩
    refine ⟨pss, (mapM_eq_ok_iff _ _ _).2 hresolved, fun e s' => ?_⟩
    change (prepare env source validate selections).run s = _ ↔ _
    rw [prepare_run, hselected, Run.bind_of_ok (Plan.answer_run _ _)]
    exact addPackages_eq_error_iff _ {} pss.flatten s₀ s' e

/-- The text of what a plan fails with. -/
def failureText? : Except ClusterError Transaction → Option String
  | .ok _ => none
  | .error e => e.message?

/-- Two selections fail beside one that resolves; and of three packages the second is in no catalog. -/
theorem prepare_fails_at_first_of_several :
    let env := surroundingsOf
      "packages:\n- name: a\n  latestVersion: 2.0.0\n- name: c\n  latestVersion: 2.0.0\n" "name: a\n"
    let package (name : String) : InstalledPackage :=
      { kind := .clusterPackage, metadata := { name }
        spec := { packageInfo := { name, version := "1.0.0" } } }
    let store := PackageStore.ofList [package "a", package "b", package "c"]
    let validate : DependencyValidator := .ofCluster env store.toSource
    let failing : List PackageSelection :=
      [.clusterPackagesNamed ["a", "x"], .allClusterPackages, .packagesNamed [⟨"n", "y"⟩]]
    let errors : List ClusterError :=
      [.packageNotFound .clusterPackage "x" none, .packageNotFound .package "y" (some "n")]
    let selections : List PackageSelection := [.exact [package "a", package "b"], .exact [package "c"]]
    (∃ s', (prepare env store.toSource validate failing).run {} = (.error (.multiple errors), s') ∧
      s'.repos.requests = [] ∧ s'.asked.updates = 0) ∧
    ∃ e s', (prepare env store.toSource validate selections).run {} = (.error e, s') ∧
      e.message? = some "package b not found in index of repository 'default'" ∧
      s'.asked.updates = 0 ∧
      ∃ before p after fs s₁, [package "a", package "b", package "c"] = before ++ p :: after ∧
        Findings env validate {} before fs s₁ ∧ Fails env validate s₁ p e s' := by
  intro env package store validate failing errors selections
  constructor
  · have ha : store.clusterPackages.get? "a" = some (package "a") := by decide +kernel
    have hx : store.clusterPackages.get? "x" = none := by decide +kernel
    have hy : (store.packages.get? "n").bind (TextMap.get? "y") = none := by decide +kernel
    have herrors : failures (failing.map (PackageSelection.resolved store.toSource)) = errors := by
      simp [failing, failures, PackageSelection.resolved, PackageStore.toSource, ha, hx, hy, bind,
        Except.bind, errors]
    obtain ⟨hrepos, -, hmultiple, -, hreads, hvalidate⟩ :=
      prepare_fails_at_first env store.toSource validate failing {}
    have hrun := hmultiple (by rw [herrors]; decide)
    rw [herrors] at hrun
    have hupdates := (hreads hvalidate).1
    rw [hrun] at hupdates
    exact ⟨_, hrun, congrArg Clientset.requests hrepos, hupdates⟩
  · obtain ⟨-, -, -, hfirst, hreads, hvalidate⟩ :=
      prepare_fails_at_first env store.toSource validate selections {}
    obtain ⟨pss, hresolved, hfails⟩ := hfirst rfl
    have htext : failureText? ((prepare env store.toSource validate selections).run {}).1 =
        some "package b not found in index of repository 'default'" := by
      decide +kernel
    have hupdates := (hreads hvalidate).1
    rcases hrun : (prepare env store.toSource validate selections).run {} with ⟨e | t, s'⟩
    · rw [hrun] at htext hupdates
      obtain ⟨before, p, after, fs, s₁, hps, hbefore, hp⟩ := (hfails e s').1 hrun
      cases hresolved
      exact ⟨e, s', rfl, htext, hupdates, before, p, after, fs, s₁, hps, hbefore, hp⟩
    · rw [hrun] at htext
      cases htext

end Transaction
end ClusterPackages
