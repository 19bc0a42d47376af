import ClusterPackages.Proofs.BestCandidate
import Mathlib.Data.List.Forall2

/-! What a validation makes of each dependency. Nothing that validation does changes what the default
repository supplies, so every dependency has one outcome (`Outcome`), whatever stands beside it, and
a validation puts the outcomes together in the order of the declarations. It fails with the first
outcome that is a failure. -/

namespace ClusterPackages

/-! ## Lists that are related member by member -/

section

variable {α β : Type} {R : α → β → Prop} {xs : List α} {ys : List β}

theorem exists_related_right (h : List.Forall₂ R xs ys) {x : α} (hx : x ∈ xs) : ∃ y ∈ ys, R x y := by
  induction h with
  | nil => cases hx
  | cons hxy _ ih =>
    rcases List.mem_cons.1 hx with rfl | hx
    · exact ⟨_, List.mem_cons_self, hxy⟩
    · obtain ⟨y, hy, hR⟩ := ih hx
      exact ⟨y, List.mem_cons_of_mem _ hy, hR⟩

theorem exists_related_left (h : List.Forall₂ R xs ys) {y : β} (hy : y ∈ ys) : ∃ x ∈ xs, R x y :=
  exists_related_right (R := fun y x => R x y) h.flip hy

end

namespace DependencyValidator

/-! ## Outcomes -/

/-- A package that is not in the cluster. -/
def IsAbsent (source : PackageSource) (name : String) : Prop :=
  ∃ e, source.clusterPackage name = .error e ∧ e.isNotFound = true

/-- What comes out about a dependency: what it adds to the requirements and to the conflicts, or what
the validation fails with. -/
inductive Outcome (source : PackageSource) (x : Supply) (d : Dependency) :
    Except ClusterError (Option Prerequisite × Option Conflict) → Prop
  | satisfied {p} (found : source.clusterPackage d.name = .ok p)
      (accepts : d.Accepts p.desiredVersion) : Outcome source x d (.ok (none, none))
  | rejected {p e} (found : source.clusterPackage d.name = .ok p) (constrained : d.version ≠ "")
      (violated : validateConstraint p.desiredVersion d.version = .error e) :
      Outcome source x d (.ok (none, some
        { actual := ⟨d.name, p.desiredVersion⟩, required := ⟨d.name, d.version⟩,
          cause := some e.message }))
  | required {texts version} (absent : IsAbsent source d.name)
      (offered : x.offered d.name = .ok texts) (best : best? d.version texts = some version) :
      Outcome source x d (.ok (some { package := ⟨d.name, version⟩, isTransitive := false }, none))
  | unavailable {texts} (absent : IsAbsent source d.name) (offered : x.offered d.name = .ok texts)
      (unmet : ∀ t ∈ texts, t ≠ "" → ¬ d.Accepts t) :
      Outcome source x d (.ok (none, some
        { actual := ⟨d.name, ""⟩, required := ⟨d.name, d.version⟩,
          cause := some "no available version satisfies the constraint" }))
  | unresolved {e} (absent : IsAbsent source d.name) (failed : x.offered d.name = .error e) :
      Outcome source x d (.error (.repo e))
  | unanswered {e} (failed : source.clusterPackage d.name = .error e)
      (other : e.isNotFound = false) : Outcome source x d (.error e)

variable {env : Surroundings} {source : PackageSource} {x : Supply} {ref : ClientRef}

/-! ## One dependency -/

/-- What a missing dependency adds, by the version that it resolves to. -/
def missing (d : Dependency) : Option String → Option Prerequisite × Option Conflict
  | some version => (some { package := ⟨d.name, version⟩, isTransitive := false }, none)
  | none => (none, some (unavailable d))

/-- The outcome of a dependency, worked out. -/
def judge (source : PackageSource) (x : Supply) (d : Dependency) :
    Except ClusterError (Option Prerequisite × Option Conflict) :=
  match source.clusterPackage d.name with
  | .ok installed => .ok (none, installedConflict? d installed)
  | .error e =>
    if e.isNotFound then
      ((x.offered d.name).mapError .repo).map fun texts => missing d (best? d.version texts)
    else .error e

theorem best?_eq_none_iff_unmet (d : Dependency) (texts : List String) :
    best? d.version texts = none ↔ ∀ t ∈ texts, t ≠ "" → ¬ d.Accepts t := by
  simp only [best?_eq_none_iff, ← Bool.not_eq_true, isAcceptable_iff, not_and]

theorem installedConflict?_of_violated {d : Dependency} {p : InstalledPackage} {e : ConstraintError}
    (constrained : d.version ≠ "") (violated : validateConstraint p.desiredVersion d.version = .error e) :
    installedConflict? d p = some
      { actual := ⟨d.name, p.desiredVersion⟩, required := ⟨d.name, d.version⟩,
        cause := some e.message } := by
  rw [installedConflict?, if_neg constrained, violated]

theorem outcome_judge (source : PackageSource) (x : Supply) (d : Dependency) :
    Outcome source x d (judge source x d) := by
  unfold judge
  cases found : source.clusterPackage d.name with
  | ok p =>
    dsimp only
    by_cases haccepts : d.Accepts p.desiredVersion
    · rw [(installedConflict?_eq_none_iff d p).2 haccepts]
      exact .satisfied found haccepts
    · obtain ⟨constrained, hviolated⟩ := not_or.1 haccepts
      cases violated : validateConstraint p.desiredVersion d.version with
      | ok _ => exact absurd violated hviolated
      | error e =>
        rw [installedConflict?_of_violated constrained violated]
        exact .rejected found constrained violated
  | error e =>
    dsimp only
    split_ifs with hmissing
    · have absent : IsAbsent source d.name := ⟨e, found, hmissing⟩
      cases offered : x.offered d.name with
      | error e => exact .unresolved absent offered
      | ok texts =>
        change Outcome source x d (.ok (missing d (best? d.version texts)))
        cases best : best? d.version texts with
        | some version => exact .required absent offered best
        | none => exact .unavailable absent offered ((best?_eq_none_iff_unmet d texts).1 best)
    · exact .unanswered found (by simpa using hmissing)

theorem judge_of_absent {d : Dependency} (absent : IsAbsent source d.name) :
    judge source x d =
      ((x.offered d.name).mapError .repo).map fun texts => missing d (best? d.version texts) := by
  obtain ⟨e, found, hmissing⟩ := absent
  rw [judge, found]
  exact if_pos hmissing

/-- A dependency has one outcome. -/
theorem outcome_iff (d : Dependency)
    (r : Except ClusterError (Option Prerequisite × Option Conflict)) :
    Outcome source x d r ↔ r = judge source x d := by
  refine ⟨fun h => ?_, fun h => h ▸ outcome_judge source x d⟩
  cases h with
  | satisfied found accepts =>
    simp only [judge, found, (installedConflict?_eq_none_iff d _).2 accepts]
  | rejected found constrained violated =>
    simp only [judge, found, installedConflict?_of_violated constrained violated]
  | required absent offered best =>
    rw [judge_of_absent absent, offered]
    exact congrArg (fun b => Except.ok (missing d b)) best.symm
  | unavailable absent offered unmet =>
    rw [judge_of_absent absent, offered]
    exact congrArg (fun b => Except.ok (missing d b)) ((best?_eq_none_iff_unmet d _).2 unmet).symm
  | unresolved absent failed =>
    rw [judge_of_absent absent, failed]
    rfl
  | unanswered failed other => simp [judge, failed, other]

theorem check_of_absent (env : Surroundings) (ref : ClientRef) {d : Dependency}
    (absent : IsAbsent source d.name) :
    check env source ref d =
      Plan.countGet >>= fun _ => resolve env ref d >>= fun best => pure (missing d best) := by
  obtain ⟨e, found, hmissing⟩ := absent
  refine congrArg _ (funext fun _ => ?_)
  rw [found]
  dsimp only
  rw [if_pos hmissing]
  exact congrArg _ (funext fun best => by cases best <;> rfl)

/-- A check finds the outcome, and leaves what the client supplies as it was. -/
theorem check_run (env : Surroundings) (source : PackageSource) (ref : ClientRef) (d : Dependency)
    (s : PlanState) :
    ((check env source ref d).run s).1 = judge source (Clientset.supplyOf env ref s.repos) d ∧
      Clientset.supplyOf env ref ((check env source ref d).run s).2.repos =
        Clientset.supplyOf env ref s.repos := by
  by_cases absent : IsAbsent source d.name
  · obtain ⟨hresolved, hkept⟩ := resolve_run env ref d
      { s with asked := { s.asked with gets := s.asked.gets + 1 } }
    rw [check_of_absent env ref absent, Run.bind_of_ok (Plan.countGet_run s), Run.bind_pure_eq,
      hresolved, judge_of_absent absent]
    refine ⟨?_, hkept⟩
    cases (Clientset.supplyOf env ref s.repos).offered d.name <;> rfl
  · unfold check judge
    rw [Run.bind_of_ok (Plan.countGet_run s)]
    cases found : source.clusterPackage d.name with
    | ok p => exact ⟨rfl, rfl⟩
    | error e =>
      have hother : ¬ e.isNotFound = true := fun hmissing => absent ⟨e, found, hmissing⟩
      dsimp only
      rw [if_neg hother, if_neg hother]
      exact ⟨rfl, rfl⟩

/-! ## All of them -/

/-- What comes out well about dependencies, one by one. -/
abbrev Outcomes (source : PackageSource) (x : Supply) :
    List Dependency → List (Option Prerequisite × Option Conflict) → Prop :=
  List.Forall₂ fun d finding => Outcome source x d (.ok finding)

theorem exists_outcomes_iff (ds : List Dependency) :
    (∃ findings, Outcomes source x ds findings) ↔
      ∀ d ∈ ds, ∃ finding, Outcome source x d (.ok finding) := by
  constructor
  · rintro ⟨findings, h⟩ d hd
    obtain ⟨finding, -, hfinding⟩ := exists_related_right h hd
    exact ⟨finding, hfinding⟩
  · intro h
    induction ds with
    | nil => exact ⟨[], .nil⟩
    | cons d ds ih =>
      obtain ⟨finding, hfinding⟩ := h d List.mem_cons_self
      obtain ⟨findings, hfindings⟩ := ih fun d' hd' => h d' (List.mem_cons_of_mem _ hd')
      exact ⟨finding :: findings, .cons hfinding hfindings⟩

theorem checkAll_eq_mapM (ds : List Dependency) :
    checkAll env source ref ds = ds.mapM (check env source ref) := by
  induction ds with
  | nil => rfl
  | cons d ds ih => rw [checkAll, ih, List.mapM_cons]

theorem outcomes_of_mapM_check {ds : List Dependency} {s t : PlanState}
    {findings : List (Option Prerequisite × Option Conflict)}
    (h : (ds.mapM (check env source ref)).run s = (.ok findings, t)) :
    Outcomes source (Clientset.supplyOf env ref s.repos) ds findings ∧
      Clientset.supplyOf env ref t.repos = Clientset.supplyOf env ref s.repos := by
  induction ds generalizing s findings with
  | nil =>
    cases h
    exact ⟨.nil, rfl⟩
  | cons d ds ih =>
    obtain ⟨finding, s₁, rest, hfinding, hrest, rfl⟩ := Run.mapM_cons_eq_ok_iff.1 h
    -- every check finds the same supply, so what came out first says nothing about the others
    obtain ⟨houtcome, hkept⟩ := check_run env source ref d s
    rw [hfinding] at houtcome hkept
    obtain ⟨houtcomes, hkept'⟩ := ih hrest
    rw [hkept] at houtcomes hkept'
    exact ⟨.cons ((outcome_iff d _).2 houtcome) houtcomes, hkept'⟩

theorem exists_mapM_check {ds : List Dependency} {s : PlanState}
    {findings : List (Option Prerequisite × Option Conflict)}
    (h : Outcomes source (Clientset.supplyOf env ref s.repos) ds findings) :
    ∃ t, (ds.mapM (check env source ref)).run s = (.ok findings, t) := by
  induction ds generalizing s findings with
  | nil =>
    cases h
    exact ⟨s, rfl⟩
  | cons d ds ih =>
    obtain _ | ⟨hfinding, hrest⟩ := h
    obtain ⟨houtcome, hkept⟩ := check_run env source ref d s
    rw [← (outcome_iff d _).1 hfinding] at houtcome
    obtain ⟨t, ht⟩ := ih (hkept ▸ hrest)
    exact ⟨t, Run.mapM_cons_eq_ok_iff.2 ⟨_, _, _, Prod.ext houtcome rfl, ht, rfl⟩⟩

theorem checkAll_eq_ok_iff (ds : List Dependency) (s : PlanState)
    (findings : List (Option Prerequisite × Option Conflict)) :
    ((checkAll env source ref ds).run s).1 = .ok findings ↔
      Outcomes source (Clientset.supplyOf env ref s.repos) ds findings := by
  rw [checkAll_eq_mapM]
  constructor
  · exact fun h => (outcomes_of_mapM_check (Prod.ext h rfl)).1
  · intro h
    obtain ⟨t, ht⟩ := exists_mapM_check h
    rw [ht]

/-- The first failure is the one that shows. -/
theorem checkAll_eq_error_iff (ds : List Dependency) (s : PlanState) (e : ClusterError) :
    ((checkAll env source ref ds).run s).1 = .error e ↔
      ∃ before d after findings, ds = before ++ d :: after ∧
        Outcomes source (Clientset.supplyOf env ref s.repos) before findings ∧
        Outcome source (Clientset.supplyOf env ref s.repos) d (.error e) := by
  rw [checkAll_eq_mapM]
  have hfails (d : Dependency) {t : PlanState}
      (hkept : Clientset.supplyOf env ref t.repos = Clientset.supplyOf env ref s.repos) :
      ((check env source ref d).run t).1 = .error e ↔
        Outcome source (Clientset.supplyOf env ref s.repos) d (.error e) := by
    rw [(check_run env source ref d t).1, hkept, outcome_iff, eq_comm]
  constructor
  · intro h
    obtain ⟨before, d, after, findings, t, hds, hbefore, hd⟩ :=
      Run.mapM_eq_error_iff.1 (Prod.ext h rfl)
    obtain ⟨houtcomes, hkept⟩ := outcomes_of_mapM_check hbefore
    exact ⟨before, d, after, findings, hds, houtcomes, (hfails d hkept).1 (congrArg Prod.fst hd)⟩
  · rintro ⟨before, d, after, findings, hds, houtcomes, hd⟩
    obtain ⟨t, hbefore⟩ := exists_mapM_check houtcomes
    have hkept := (outcomes_of_mapM_check hbefore).2
    have hrun := Run.mapM_eq_error_iff.2 ⟨before, d, after, findings, t, hds, hbefore,
      Prod.ext ((hfails d hkept).2 hd) rfl⟩
    rw [hrun]

/-! ## Validations -/

/-- What the default repository supplies, as it is found now. -/
def defaultSupply (env : Surroundings) (s : Clientset) : Supply :=
  Clientset.supplyOf env ((Clientset.forDefault env).run s).1 ((Clientset.forDefault env).run s).2

/-- A validation that is put together of what came out about each dependency. -/
structure Sums (findings : List (Option Prerequisite × Option Conflict)) (v : Validation) : Prop where
  requirements : v.requirements = findings.filterMap Prod.fst
  conflicts : v.conflicts = findings.filterMap Prod.snd
  status : v.status =
    if v.conflicts ≠ [] then .conflict else if v.requirements ≠ [] then .resolvable else .ok

theorem sums_iff (findings : List (Option Prerequisite × Option Conflict)) (v : Validation) :
    Sums findings v ↔ .ofParts (findings.filterMap Prod.fst) (findings.filterMap Prod.snd) = v := by
  have hstatus (requirements : List Prerequisite) (conflicts : List Conflict) :
      Validation.statusOf requirements conflicts = if conflicts ≠ [] then .conflict
        else if requirements ≠ [] then .resolvable else .ok := by
    cases conflicts <;> cases requirements <;> rfl
  constructor
  · rintro ⟨hrequirements, hconflicts, hs⟩
    rw [← hrequirements, ← hconflicts, Validation.ofParts, hstatus, ← hs]
  · rintro rfl
    exact ⟨rfl, rfl, hstatus _ _⟩

/-- A validation asks about the dependencies alone. -/
theorem ofCluster_run (m : Manifest) (version : String) (s : PlanState) :
    ((ofCluster env source m version).run s).1 =
      ((checkAll env source ((Clientset.forDefault env).run s.repos).1 m.dependencies).run
        { s with repos := ((Clientset.forDefault env).run s.repos).2 }).1.map fun findings =>
          .ofParts (findings.filterMap Prod.fst) (findings.filterMap Prod.snd) := by
  unfold ofCluster
  split_ifs with hempty
  · rw [List.isEmpty_iff.1 hempty]
    rfl
  · rw [Run.bind_of_ok (Plan.onRepos_run _ s), Run.bind_pure_eq]

/-- Each dependency is classified on its own. A validation that ends well sums up what came out, in
the order of the declarations, and one that fails does so with the first failure. -/
theorem validation_classifies (env : Surroundings) (source : PackageSource) (m : Manifest)
    (version : String) (s : PlanState) :
    let x := defaultSupply env s.repos
    let result := ((ofCluster env source m version).run s).1
    (∀ d, ∃! outcome, Outcome source x d outcome) ∧
    (∀ v, result = .ok v ↔ ∃ findings, Outcomes source x m.dependencies findings ∧ Sums findings v) ∧
    (∀ v, result = .ok v → (v.hasConflicts = true ↔ v.status = .conflict)) ∧
    (∀ e, result = .error e ↔ ∃ before d after, m.dependencies = before ++ d :: after ∧
      (∀ b ∈ before, ∃ finding, Outcome source x b (.ok finding)) ∧
      Outcome source x d (.error e)) ∧
    ((∃ e, result = .error e) ↔ ∃ d ∈ m.dependencies, ∃ e, Outcome source x d (.error e)) := by
  intro x result
  have hrun : result = _ := ofCluster_run m version s
  have hok (v : Validation) :
      result = .ok v ↔ ∃ findings, Outcomes source x m.dependencies findings ∧ Sums findings v := by
    rw [hrun, Run.except_map_eq_ok_iff]
    simp only [checkAll_eq_ok_iff, sums_iff]
    rfl
  have herror (e : ClusterError) :
      result = .error e ↔ ∃ before d after, m.dependencies = before ++ d :: after ∧
        (∀ b ∈ before, ∃ finding, Outcome source x b (.ok finding)) ∧
        Outcome source x d (.error e) := by
    rw [hrun, Run.except_map_eq_error_iff, checkAll_eq_error_iff]
    simp only [← exists_outcomes_iff, exists_and_left, exists_and_right]
    rfl
  refine ⟨fun d => ⟨judge source x d, outcome_judge source x d, fun r hr => (outcome_iff d r).1 hr⟩,
    hok, fun v hv => ?_, herror, ?_, ?_⟩
  · obtain ⟨findings, -, hsums⟩ := (hok v).1 hv
    rw [hsums.status]
    by_cases hconflicts : v.conflicts = []
    · by_cases hrequirements : v.requirements = [] <;>
        simp [Validation.hasConflicts, hconflicts, hrequirements]
    · simp [Validation.hasConflicts, hconflicts]
  · rintro ⟨e, he⟩
    obtain ⟨before, d, after, hds, -, hd⟩ := (herror e).1 he
    exact ⟨d, by simp [hds], e, hd⟩
  · rintro ⟨d, hd, e, hfails⟩
    cases hresult : result with
    | error e' => exact ⟨e', rfl⟩
    | ok v =>
      obtain ⟨findings, houtcomes, -⟩ := (hok v).1 hresult
      obtain ⟨finding, hfinding⟩ := (exists_outcomes_iff _).1 ⟨findings, houtcomes⟩ d hd
      have hsame := (outcome_iff d _).1 hfinding
      rw [← (outcome_iff d _).1 hfails] at hsame
      cases hsame

/-- One dependency is met and one is not; one can be installed, and one is in no catalog. -/
example :
    let main : Repository :=
      Repository.setDefault true { metadata := { name := "main" }, spec := { url := "http://h" } }
    let page (text : String) : Reply := .answer 200 none (some (Text.encode text.toList))
    let env : Surroundings :=
      { settings := {}, source := (({} : Inventory).putRepository main).toSource
        web := .ofPages true
          [("http://h/x/versions.yaml", page "versions:\n- version: v1.0.0\n- version: v2.0.0\n"),
           ("http://h/index.yaml", page "packages:\n- name: x\n  latestVersion: v2.0.0\n")] }
    let y : InstalledPackage :=
      { kind := .clusterPackage, metadata := { name := "y" }
        spec := { packageInfo := { name := "y", version := "v3.1.0" } } }
    let m : Manifest :=
      { name := "app", dependencies := [⟨"z", "^1"⟩, ⟨"y", "^3"⟩, ⟨"x", "<2"⟩, ⟨"y", "<3"⟩] }
    ((ofCluster env (PackageStore.ofList [y]).toSource m "").run {}).1.toOption = some
      { status := .conflict
        requirements := [{ package := ⟨"x", "v1.0.0"⟩, isTransitive := false }]
        conflicts :=
          [{ actual := ⟨"z", ""⟩, required := ⟨"z", "^1"⟩
             cause := some "no available version satisfies the constraint" },
           { actual := ⟨"y", "v3.1.0"⟩, required := ⟨"y", "<3"⟩
             cause := some "Version v3.1.0 does not satisfy <3: <3" }] } := by
  decide +kernel

end DependencyValidator
end ClusterPackages
