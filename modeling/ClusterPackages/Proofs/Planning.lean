import ClusterPackages.Proofs.Selection
import Mathlib.Data.List.Induction

/-! A plan sorts the selected packages. `lookAt` is what planning learns about one of them, and
`Finding.items`, `Finding.conflictItems` and `Finding.requirements` what that adds to the plan. -/

namespace ClusterPackages.Transaction

/-- What planning finds out about a package: the latest version that its repository shows, and how
that validates if it is newer. -/
structure Finding where
  package : InstalledPackage
  latest : String
  validation : Option Validation

namespace Finding

def items (isExplicit : Bool) (f : Finding) : List UpdateItem :=
  match f.validation with
  | none => if isExplicit then [{ package := f.package, version := "" }] else []
  | some v => if v.conflicts = [] then [{ package := f.package, version := f.latest }] else []

def conflictItems (f : Finding) : List ConflictItem :=
  match f.validation with
  | none => []
  | some v =>
    if v.conflicts = [] then []
    else [{ item := { package := f.package, version := f.latest }, conflicts := v.conflicts }]

def requirements (f : Finding) : List Prerequisite :=
  match f.validation with
  | none => []
  | some v => if v.conflicts = [] then v.requirements else []

end Finding

/-- A plan after one more finding. -/
def take (isExplicit : Bool) (t : Transaction) (f : Finding) : Transaction where
  items := t.items ++ f.items isExplicit
  conflictItems := t.conflictItems ++ f.conflictItems
  requirements := f.requirements.foldl addNew t.requirements

variable {env : Surroundings} {validate : DependencyValidator} {isExplicit : Bool}

/-- What planning does about a package before the plan is touched. -/
def lookAt (env : Surroundings) (validate : DependencyValidator) (p : InstalledPackage) :
    Plan Finding := do
  let repo ← Plan.onRepos (Clientset.forPackage env p)
  let catalog ← Plan.onClient (Clientset.call repo (RepoClient.catalog env.web))
  match catalog.get? p.packageName with
  | none => throw (.packageNotFoundInIndex p.packageName (repositoryLabel p))
  | some entry =>
    if isUpgradable p.desiredVersion entry.latestVersion then
      let manifest ← Plan.onClient
        (Clientset.call repo fun c => c.manifest env.web p.packageName entry.latestVersion)
      let v ← validate manifest entry.latestVersion
      pure { package := p, latest := entry.latestVersion, validation := some v }
    else pure { package := p, latest := entry.latestVersion, validation := none }

theorem hasConflicts_iff (v : Validation) : v.hasConflicts = true ↔ v.conflicts ≠ [] := by
  simp [Validation.hasConflicts]

theorem add_eq_take (isExplicit : Bool) (t : Transaction) (p : InstalledPackage) (version : String) (v : Validation) :
    t.add { package := p, version } v =
      t.take isExplicit { package := p, latest := version, validation := some v } := by
  unfold add take Finding.items Finding.conflictItems Finding.requirements
  by_cases h : v.conflicts = []
  · have hv : v.hasConflicts = false := by simp [Validation.hasConflicts, h]
    simp [h, hv]
  · simp [h, (hasConflicts_iff v).2 h]

theorem take_current (isExplicit : Bool) (t : Transaction) (p : InstalledPackage) (latest : String) :
    t.take isExplicit { package := p, latest, validation := none } =
      if isExplicit then t.addUpToDate p else t := by
  cases isExplicit <;>
    simp [take, addUpToDate, Finding.items, Finding.conflictItems, Finding.requirements]

theorem addPackage_eq (t : Transaction) (p : InstalledPackage) :
    addPackage env validate isExplicit t p = t.take isExplicit <$> lookAt env validate p := by
  unfold addPackage lookAt
  simp only [map_eq_pure_bind, bind_assoc]
  congr 1
  funext repo
  congr 1
  funext catalog
  cases catalog.get? p.packageName with
  | none => rfl
  | some entry =>
    simp only
    split_ifs with hnewer hexplicit
    · simp only [bind_assoc, pure_bind, add_eq_take isExplicit]
    · simp only [pure_bind, take_current, if_pos hexplicit]
    · simp only [pure_bind, take_current, if_neg hexplicit]

/-- Planning looks at each package in turn, and what it has found sets the plan. -/
theorem addPackages_eq (t : Transaction) (ps : List InstalledPackage) :
    addPackages env validate isExplicit t ps =
      (fun fs => fs.foldl (take isExplicit) t) <$> ps.mapM (lookAt env validate) := by
  induction ps generalizing t with
  | nil => simp [addPackages]
  | cons p ps ih =>
    simp only [addPackages, addPackage_eq, ih, List.mapM_cons, map_eq_pure_bind, bind_assoc,
      pure_bind, List.foldl_cons]

theorem foldl_addNew (xs : List Prerequisite) : xs.foldl addNew [] = xs.eraseDups := by
  induction xs using List.reverseRecOn with
  | nil => rfl
  | append_singleton xs x ih =>
    rw [List.foldl_append, ih, List.eraseDups_append]
    by_cases h : x ∈ xs <;> simp [addNew, h, List.removeAll, List.eraseDups_cons]

theorem foldl_take (fs : List Finding) (t : Transaction) :
    fs.foldl (take isExplicit) t =
      { items := t.items ++ fs.flatMap (Finding.items isExplicit)
        conflictItems := t.conflictItems ++ fs.flatMap Finding.conflictItems
        requirements := (fs.flatMap Finding.requirements).foldl addNew t.requirements } := by
  induction fs generalizing t with
  | nil => simp
  | cons f fs ih => simp [ih, take]

/-! ## Runs -/

/-- The steps of planning that lead to a finding, each from the state that the one before left. The
empty name stands for the default repository. -/
inductive Found (env : Surroundings) (validate : DependencyValidator) (s : PlanState)
    (p : InstalledPackage) : Finding → PlanState → Prop
  | current {repo s₁ catalog s₂ entry}
      (lookup : (Plan.onRepos (if p.repositoryName = "" then Clientset.forDefault env
        else Clientset.forName env p.repositoryName)).run s = (.ok repo, s₁))
      (read : (Plan.onClient (Clientset.call repo (RepoClient.catalog env.web))).run s₁ =
        (.ok catalog, s₂))
      (first : catalog.get? p.packageName = some entry)
      (current : isUpgradable p.desiredVersion entry.latestVersion = false) :
      Found env validate s p
        { package := p, latest := entry.latestVersion, validation := none } s₂
  | newer {repo s₁ catalog s₂ entry manifest s₃ v s₄}
      (lookup : (Plan.onRepos (if p.repositoryName = "" then Clientset.forDefault env
        else Clientset.forName env p.repositoryName)).run s = (.ok repo, s₁))
      (read : (Plan.onClient (Clientset.call repo (RepoClient.catalog env.web))).run s₁ =
        (.ok catalog, s₂))
      (first : catalog.get? p.packageName = some entry)
      (newer : isUpgradable p.desiredVersion entry.latestVersion = true)
      (fetched : (Plan.onClient (Clientset.call repo fun c =>
        c.manifest env.web p.packageName entry.latestVersion)).run s₂ = (.ok manifest, s₃))
      (validated : (validate manifest entry.latestVersion).run s₃ = (.ok v, s₄)) :
      Found env validate s p
        { package := p, latest := entry.latestVersion, validation := some v } s₄

theorem forPackage_eq (env : Surroundings) (p : InstalledPackage) :
    Clientset.forPackage env p =
      if p.repositoryName = "" then Clientset.forDefault env
      else Clientset.forName env p.repositoryName := by
  unfold Clientset.forPackage
  split_ifs with h
  · rw [h]
    rfl
  · rfl

theorem lookAt_eq_ok_iff (p : InstalledPackage) (s s' : PlanState) (f : Finding) :
    (lookAt env validate p).run s = (.ok f, s') ↔ Found env validate s p f s' := by
  unfold lookAt
  rw [forPackage_eq]
  constructor
  · intro h
    obtain ⟨repo, s₁, lookup, h⟩ := Run.bind_eq_ok_iff.1 h
    obtain ⟨catalog, s₂, read, h⟩ := Run.bind_eq_ok_iff.1 h
    cases first : catalog.get? p.packageName with
    | none =>
      rw [first] at h
      cases h
    | some entry =>
      simp only [first] at h
      split_ifs at h with newer
      · obtain ⟨manifest, s₃, fetched, h⟩ := Run.bind_eq_ok_iff.1 h
        obtain ⟨v, s₄, validated, h⟩ := Run.bind_eq_ok_iff.1 h
        obtain ⟨rfl, rfl⟩ := Run.pure_eq_ok_iff.1 h
        exact .newer lookup read first newer fetched validated
      · obtain ⟨rfl, rfl⟩ := Run.pure_eq_ok_iff.1 h
        exact .current lookup read first (by simpa using newer)
  · intro h
    cases h with
    | current lookup read first current =>
      rw [Run.bind_of_ok lookup, Run.bind_of_ok read]
      simp only [first, current, Bool.false_eq_true, if_false]
      rfl
    | newer lookup read first newer fetched validated =>
      rw [Run.bind_of_ok lookup, Run.bind_of_ok read]
      simp only [first, newer, if_true]
      rw [Run.bind_of_ok fetched, Run.bind_of_ok validated]
      rfl

/-- What planning finds out about packages that it looks at one after the other. -/
inductive Findings (env : Surroundings) (validate : DependencyValidator) :
    PlanState → List InstalledPackage → List Finding → PlanState → Prop
  | nil {s} : Findings env validate s [] [] s
  | cons {s p f s₁ ps fs s₂} (head : Found env validate s p f s₁)
      (tail : Findings env validate s₁ ps fs s₂) :
      Findings env validate s (p :: ps) (f :: fs) s₂

theorem mapM_lookAt_eq_ok_iff (ps : List InstalledPackage) (s s' : PlanState) (fs : List Finding) :
    (ps.mapM (lookAt env validate)).run s = (.ok fs, s') ↔ Findings env validate s ps fs s' := by
  induction ps generalizing s fs with
  | nil =>
    rw [List.mapM_nil, Run.pure_eq_ok_iff]
    constructor
    · rintro ⟨rfl, rfl⟩
      exact .nil
    · intro h
      cases h
      exact ⟨rfl, rfl⟩
  | cons p ps ih =>
    rw [Run.mapM_cons_eq_ok_iff]
    constructor
    · rintro ⟨f, s₁, gs, hf, hgs, rfl⟩
      exact .cons ((lookAt_eq_ok_iff p s s₁ f).1 hf) ((ih s₁ gs).1 hgs)
    · intro h
      cases h with
      | cons head tail =>
        exact ⟨_, _, _, (lookAt_eq_ok_iff p s _ _).2 head, (ih _ _).2 tail, rfl⟩

/-- Planning reads all selections, whatever they give, before it looks at any package. -/
theorem prepare_run (source : PackageSource) (selections : List PackageSelection) (s : PlanState) :
    (prepare env source validate selections).run s =
      (Plan.answer (selected (selections.map (PackageSelection.resolved source))) >>=
        addPackages env validate (selections.any PackageSelection.isExplicit) {}).run
          ((PackageSelection.getAll source selections).run s).2 := by
  have hread : (liftM (PackageSelection.getAll source selections) : Plan _).run s =
      (.ok (selections.map (PackageSelection.resolved source)),
        ((PackageSelection.getAll source selections).run s).2) :=
    congrArg (fun x => (Except.ok x, _)) (PackageSelection.getAll_run source selections s).1
  unfold prepare
  rw [Run.bind_of_ok hread]

/-- A plan ends well exactly if each selection resolves and each package found gives a finding. -/
theorem prepare_eq_ok_iff (source : PackageSource) (selections : List PackageSelection)
    (s s' : PlanState) (t : Transaction) :
    (prepare env source validate selections).run s = (.ok t, s') ↔
      ∃ pss fs, selections.mapM (PackageSelection.resolved source) = .ok pss ∧
        Findings env validate ((PackageSelection.getAll source selections).run s).2 pss.flatten fs s' ∧
        t = fs.foldl (take (selections.any PackageSelection.isExplicit)) {} := by
  rw [prepare_run]
  set s₀ := ((PackageSelection.getAll source selections).run s).2
  constructor
  · intro h
    obtain ⟨ps, s₁, hps, h⟩ := Run.bind_eq_ok_iff.1 h
    obtain ⟨hselected, rfl⟩ := Prod.mk.inj ((Plan.answer_run _ s₀).symm.trans hps)
    obtain ⟨pss, hmap, rfl⟩ := (selected_eq_ok_iff _ ps).1 hselected
    rw [addPackages_eq] at h
    obtain ⟨fs, hfs, rfl⟩ := Run.map_eq_ok_iff.1 h
    exact ⟨pss, fs, (mapM_eq_ok_iff _ _ _).2 hmap, (mapM_lookAt_eq_ok_iff _ _ _ _).1 hfs, rfl⟩
  · rintro ⟨pss, fs, hpss, hfs, rfl⟩
    have hselected : selected (selections.map (PackageSelection.resolved source)) = .ok pss.flatten :=
      (selected_eq_ok_iff _ _).2 ⟨pss, (mapM_eq_ok_iff _ _ _).1 hpss, rfl⟩
    rw [hselected, Run.bind_of_ok (Plan.answer_run _ s₀), addPackages_eq]
    exact Run.map_eq_ok_iff.2 ⟨fs, (mapM_lookAt_eq_ok_iff _ _ _ _).2 hfs, rfl⟩

/-- A plan is the selected packages, in order, each sorted by what was found out about it. -/
theorem prepare_classifies (env : Surroundings) (source : PackageSource)
    (validate : DependencyValidator) (selections : List PackageSelection) (s s' : PlanState)
    (t : Transaction) :
    (prepare env source validate selections).run s = (.ok t, s') ↔
      ∃ pss fs, selections.mapM (PackageSelection.resolved source) = .ok pss ∧
        Findings env validate ((PackageSelection.getAll source selections).run s).2 pss.flatten fs s' ∧
        t = { items := fs.flatMap (Finding.items (selections.any PackageSelection.isExplicit))
              conflictItems := fs.flatMap Finding.conflictItems
              requirements := (fs.flatMap Finding.requirements).eraseDups } := by
  rw [prepare_eq_ok_iff]
  simp only [foldl_take, foldl_addNew, List.nil_append]

end ClusterPackages.Transaction
