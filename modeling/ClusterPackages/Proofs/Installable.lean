import ClusterPackages.Proofs.Classified
import ClusterPackages.Proofs.Placement
import Mathlib.Data.List.Induction

/-! Installing what a validation requires. Each dependency is judged on its own (`Judged`), and a
requirement is a version that its dependency accepts. So once the requirements are installed nothing
is missing, and the only thing left to stand in the way is a second requirement under one name: two
dependencies may ask for one package in versions that exclude each other, of which the later replaces
the other. -/

namespace ClusterPackages

namespace DependencyValidator

/-! ## What one validation says -/

/-- What may come out about a dependency. -/
inductive Judged (source : PackageSource) (d : Dependency) :
    Option Prerequisite × Option Conflict → Prop
  | installed {p} (found : source.clusterPackage d.name = .ok p) :
      Judged source d (none, installedConflict? d p)
  | missing {version} (absent : IsAbsent source d.name) (accepts : d.Accepts version) :
      Judged source d (some { package := ⟨d.name, version⟩, isTransitive := false }, none)
  | unavailable (absent : IsAbsent source d.name) : Judged source d (none, some (unavailable d))

variable {env : Surroundings} {source : PackageSource} {repo : ClientRef}

theorem Outcome.judged {x : Supply} {d : Dependency}
    {finding : Option Prerequisite × Option Conflict} (h : Outcome source x d (.ok finding)) :
    Judged source d finding := by
  cases h with
  | satisfied found accepts =>
    rw [← (installedConflict?_eq_none_iff d _).2 accepts]
    exact .installed found
  | rejected found constrained violated =>
    rw [← installedConflict?_of_violated constrained violated]
    exact .installed found
  | required absent offered best => exact .missing absent (accepts_of_best? best)
  | unavailable absent offered unmet => exact .unavailable absent

/-- A validation that ends well puts together what came out about each dependency. -/
theorem judged_of_ofCluster {m : Manifest} {version : String} {s t : PlanState} {v : Validation}
    (h : (ofCluster env source m version).run s = (.ok v, t)) :
    ∃ findings, List.Forall₂ (Judged source) m.dependencies findings ∧
      v = .ofParts (findings.filterMap Prod.fst) (findings.filterMap Prod.snd) := by
  have hv := congrArg Prod.fst h
  rw [ofCluster_run, Run.except_map_eq_ok_iff] at hv
  obtain ⟨findings, hfindings, rfl⟩ := hv
  exact ⟨findings, ((checkAll_eq_ok_iff _ _ _).1 hfindings).imp fun _ _ => Outcome.judged, rfl⟩

theorem status_eq_conflict {requirements : List Prerequisite} {conflicts : List Conflict}
    (h : conflicts ≠ []) : (Validation.ofParts requirements conflicts).status = .conflict := by
  cases conflicts with
  | nil => exact absurd rfl h
  | cons c conflicts => rfl

theorem conflicts_of_resolvable {requirements : List Prerequisite} {conflicts : List Conflict}
    (h : (Validation.ofParts requirements conflicts).status = .resolvable) : conflicts = [] := by
  by_contra hne
  rw [status_eq_conflict hne] at h
  cases h

/-- A requirement that a missing dependency accepts. -/
def IsRequiredBy (source : PackageSource) (d : Dependency) (q : Prerequisite) : Prop :=
  IsAbsent source d.name ∧ q.package.name = d.name ∧ d.Accepts q.package.version

/-- Without a conflict each dependency is installed and accepted, or missing and provided for. -/
theorem met_or_required {ds : List Dependency}
    {findings : List (Option Prerequisite × Option Conflict)}
    (h : List.Forall₂ (Judged source) ds findings) (hnone : ∀ f ∈ findings, f.2 = none) :
    ∀ d ∈ ds, (∃ p, source.clusterPackage d.name = .ok p ∧ d.Accepts p.desiredVersion) ∨
      ∃ q ∈ findings.filterMap Prod.fst, IsRequiredBy source d q := by
  intro d hd
  obtain ⟨f, hf, hjudged⟩ := exists_related_right h hd
  have hclear := hnone f hf
  cases hjudged with
  | @installed p found => exact .inl ⟨p, found, (installedConflict?_eq_none_iff d p).1 hclear⟩
  | missing absent accepts =>
    exact .inr ⟨_, List.mem_filterMap.2 ⟨_, hf, rfl⟩, absent, rfl, accepts⟩
  | unavailable => cases hclear

/-- Nothing is required but for a dependency that is missing. -/
theorem isAbsent_of_required {ds : List Dependency}
    {findings : List (Option Prerequisite × Option Conflict)}
    (h : List.Forall₂ (Judged source) ds findings) :
    ∀ q ∈ findings.filterMap Prod.fst, IsAbsent source q.package.name := by
  intro q hq
  obtain ⟨f, hf, hfq⟩ := List.mem_filterMap.1 hq
  obtain ⟨d, -, hjudged⟩ := exists_related_left h hf
  cases hjudged with
  | missing absent accepts =>
    obtain rfl := Option.some.inj hfq
    exact absent
  | installed | unavailable => cases hfq

/-! ## Validating when everything is installed -/

/-- What the installed package has against a dependency. -/
def conflict? (source : PackageSource) (d : Dependency) : Option Conflict :=
  (source.clusterPackage d.name).toOption.bind (installedConflict? d)

theorem outcomes_of_installed {ds : List Dependency}
    (h : ∀ d ∈ ds, ∃ p, source.clusterPackage d.name = .ok p) (x : Supply) :
    Outcomes source x ds (ds.map fun d => (none, conflict? source d)) := by
  refine List.forall₂_map_right_iff.2 (List.forall₂_same.2 fun d hd => ?_)
  obtain ⟨p, hp⟩ := h d hd
  rw [outcome_iff, judge, conflict?, hp]
  rfl

/-- With all dependencies installed no repository is asked, so a validation always ends well. -/
theorem ofCluster_of_installed (env : Surroundings) {m : Manifest} (version : String)
    (h : ∀ d ∈ m.dependencies, ∃ p, source.clusterPackage d.name = .ok p) (s : PlanState) :
    ∃ t, (ofCluster env source m version).run s =
      (.ok (.ofParts [] (m.dependencies.filterMap (conflict? source))), t) := by
  refine ⟨_, Prod.ext ?_ rfl⟩
  rw [ofCluster_run, (checkAll_eq_ok_iff _ _ _).2 (outcomes_of_installed h _)]
  simp only [Except.map, List.filterMap_map, Function.comp_def, List.filterMap_none]

/-! ## Installing requirements -/

/-- A cluster-wide package with the name and the version of a requirement. -/
def IsFor (q : Prerequisite) (p : InstalledPackage) : Prop :=
  p.kind = .clusterPackage ∧ p.name = q.package.name ∧ p.desiredVersion = q.package.version

/-- Packages that install requirements, all of them and nothing else. -/
structure Installs (requirements : List Prerequisite) (ps : List InstalledPackage) : Prop where
  each : ∀ q ∈ requirements, ∃ p ∈ ps, IsFor q p
  only : ∀ p ∈ ps, ∃ q ∈ requirements, IsFor q p

theorem get?_put_clusterPackage (store : PackageStore) {p : InstalledPackage}
    (hkind : p.kind = .clusterPackage) (name : String) :
    (store.put p).clusterPackages.get? name =
      if name = p.name then some p else store.clusterPackages.get? name := by
  unfold PackageStore.put
  simp only [hkind, TextMap.get?_insert]

/-- Of the packages that are added under a name one is found there, and if none is added what was
there before. -/
theorem clusterPackage_foldl_put {ps : List InstalledPackage}
    (hkind : ∀ p ∈ ps, p.kind = .clusterPackage) (store : PackageStore) (name : String) :
    (∃ p ∈ ps, p.name = name ∧ (ps.foldl PackageStore.put store).toSource.clusterPackage name = .ok p) ∨
      (∀ p ∈ ps, p.name ≠ name) ∧
        (ps.foldl PackageStore.put store).toSource.clusterPackage name =
          store.toSource.clusterPackage name := by
  induction ps using List.reverseRecOn with
  | nil => exact .inr ⟨by simp, rfl⟩
  | append_singleton ps p ih =>
    have hp := hkind p (by simp)
    have hget : ((ps ++ [p]).foldl PackageStore.put store).toSource.clusterPackage name =
        if name = p.name then .ok p
        else (ps.foldl PackageStore.put store).toSource.clusterPackage name := by
      rw [List.foldl_append]
      unfold PackageStore.toSource
      simp only [List.foldl_cons, List.foldl_nil, get?_put_clusterPackage _ hp]
      split_ifs <;> rfl
    by_cases hname : name = p.name
    · exact .inl ⟨p, by simp, hname.symm, by rw [hget, if_pos hname]⟩
    · rw [if_neg hname] at hget
      rw [hget]
      rcases ih fun p hp => hkind p (by simp [hp]) with ⟨p', hp', hfound⟩ | ⟨hnone, hfound⟩
      · exact .inl ⟨p', by simp [hp'], hfound⟩
      · refine .inr ⟨fun p' hp' => ?_, hfound⟩
        rcases List.mem_append.1 hp' with hp' | hp'
        · exact hnone p' hp'
        · exact fun h => hname (h.symm.trans (congrArg _ (List.mem_singleton.1 hp')))

theorem parts_of_installedConflict? {d : Dependency} {p : InstalledPackage} {c : Conflict}
    (h : installedConflict? d p = some c) :
    ¬ d.Accepts p.desiredVersion ∧ c.actual = ⟨d.name, p.desiredVersion⟩ ∧
      c.required = ⟨d.name, d.version⟩ := by
  have hrejected : ¬ d.Accepts p.desiredVersion := fun haccepts => by
    rw [(installedConflict?_eq_none_iff d p).2 haccepts] at h
    cases h
  unfold installedConflict? at h
  split_ifs at h
  split at h
  · cases h
  · obtain rfl := Option.some.inj h
    exact ⟨hrejected, rfl, rfl⟩

theorem not_isAbsent_of_found {name : String} {p : InstalledPackage}
    (h : source.clusterPackage name = .ok p) : ¬ IsAbsent source name := by
  rintro ⟨e, he, -⟩
  rw [h] at he
  cases he

/-- A package that installs a requirement. -/
def installing (q : Prerequisite) : InstalledPackage where
  kind := .clusterPackage
  metadata := { name := some q.package.name }
  spec := { packageInfo := { name := q.package.name, version := q.package.version } }

theorem installs_map_installing (requirements : List Prerequisite) :
    Installs requirements (requirements.map installing) := by
  constructor
  · exact fun q hq => ⟨installing q, List.mem_map_of_mem hq, rfl, rfl, rfl⟩
  · intro p hp
    obtain ⟨q, hq, rfl⟩ := List.mem_map.1 hp
    exact ⟨q, hq, rfl, rfl, rfl⟩

theorem Installs.isClusterPackage {requirements : List Prerequisite} {ps : List InstalledPackage}
    (h : Installs requirements ps) : ∀ p ∈ ps, p.kind = .clusterPackage := by
  intro p hp
  obtain ⟨q, -, hfor⟩ := h.only p hp
  exact hfor.1

/-- What is found for a requirement is required under the same name, in the same or another version. -/
theorem found_of_required {requirements : List Prerequisite} {ps : List InstalledPackage}
    (h : Installs requirements ps) (store : PackageStore) {q : Prerequisite} (hq : q ∈ requirements) :
    ∃ p, (ps.foldl PackageStore.put store).toSource.clusterPackage q.package.name = .ok p ∧
      ∃ q' ∈ requirements, q'.package = ⟨q.package.name, p.desiredVersion⟩ := by
  obtain ⟨p, hp, hfor⟩ := h.each q hq
  rcases clusterPackage_foldl_put h.isClusterPackage store q.package.name with
    ⟨p', hp', hname, hfound⟩ | ⟨hfree, -⟩
  · obtain ⟨q', hq', -, hqname, hqversion⟩ := h.only p' hp'
    exact ⟨p', hfound, q', hq', by rw [← hname, hqname, hqversion]⟩
  · exact absurd hfor.2.1 (hfree p hp)

/-- With the requirements installed each dependency is installed, in a version that it accepts or in
one that is required under its name. -/
theorem found_after_installing {store : PackageStore} {ds : List Dependency}
    {findings : List (Option Prerequisite × Option Conflict)}
    (h : List.Forall₂ (Judged store.toSource) ds findings) (hnone : ∀ f ∈ findings, f.2 = none)
    {ps : List InstalledPackage} (hps : Installs (findings.filterMap Prod.fst) ps) :
    ∀ d ∈ ds, ∃ p, (ps.foldl PackageStore.put store).toSource.clusterPackage d.name = .ok p ∧
      (d.Accepts p.desiredVersion ∨
        (∃ q ∈ findings.filterMap Prod.fst, IsRequiredBy store.toSource d q) ∧
          ∃ q ∈ findings.filterMap Prod.fst, q.package = ⟨d.name, p.desiredVersion⟩) := by
  intro d hd
  rcases met_or_required h hnone d hd with ⟨p, hp, haccepts⟩ | ⟨q, hq, hrequired⟩
  · rcases clusterPackage_foldl_put hps.isClusterPackage store d.name with
      ⟨p', hp', hname, -⟩ | ⟨-, hfound⟩
    · obtain ⟨q, hq, -, hqname, -⟩ := hps.only p' hp'
      have habsent := isAbsent_of_required h q hq
      rw [← hqname, hname] at habsent
      exact absurd habsent (not_isAbsent_of_found hp)
    · exact ⟨p, hfound.trans hp, .inl haccepts⟩
  · obtain ⟨p, hp, hpackage⟩ := found_of_required hps store hq
    rw [hrequired.2.1] at hp hpackage
    exact ⟨p, hp, .inr ⟨⟨q, hq, hrequired⟩, hpackage⟩⟩

/-- Two requirements that cannot be installed together. -/
def Rivals (q q' : Prerequisite) : Prop :=
  q.package.name = q'.package.name ∧ q.package.version ≠ q'.package.version

/-- After a validation that calls a manifest resolvable, installing what it requires leaves nothing
missing. What is then in conflict is a package required in two versions; without such requirements
all is well. -/
theorem resolvable_installs_but_rivals (env env' : Surroundings) (store : PackageStore) (m : Manifest)
    (version : String) {s s' : PlanState} {v : Validation}
    (h : (ofCluster env store.toSource m version).run s = (.ok v, s')) (hstatus : v.status = .resolvable)
    {ps : List InstalledPackage} (hps : Installs v.requirements ps) (t : PlanState) :
    ∃ w t', (ofCluster env' (ps.foldl PackageStore.put store).toSource m version).run t = (.ok w, t') ∧
      w.requirements = [] ∧
      (∀ c ∈ w.conflicts, ∃ q ∈ v.requirements, ∃ q' ∈ v.requirements, Rivals q q' ∧
        c.actual = q'.package ∧
        ∃ d ∈ m.dependencies, c.required = ⟨d.name, d.version⟩ ∧ IsRequiredBy store.toSource d q) ∧
      ((∀ q ∈ v.requirements, ∀ q' ∈ v.requirements, ¬ Rivals q q') → w = {}) := by
  obtain ⟨findings, hjudged, rfl⟩ := judged_of_ofCluster h
  have hnone : ∀ f ∈ findings, f.2 = none :=
    List.filterMap_eq_nil_iff.1 (conflicts_of_resolvable hstatus)
  have hfound := found_after_installing hjudged hnone hps
  obtain ⟨t', hrun⟩ := ofCluster_of_installed env' version
    (fun d hd => (hfound d hd).imp fun _ hp => hp.1) t
  have hconflict : ∀ c ∈ m.dependencies.filterMap
      (conflict? (ps.foldl PackageStore.put store).toSource),
      ∃ q ∈ findings.filterMap Prod.fst, ∃ q' ∈ findings.filterMap Prod.fst, Rivals q q' ∧
        c.actual = q'.package ∧
        ∃ d ∈ m.dependencies, c.required = ⟨d.name, d.version⟩ ∧ IsRequiredBy store.toSource d q := by
    intro c hc
    obtain ⟨d, hd, hdc⟩ := List.mem_filterMap.1 hc
    obtain ⟨p, hp, hside⟩ := hfound d hd
    unfold conflict? at hdc
    rw [hp] at hdc
    obtain ⟨hrejected, hactual, hrequired⟩ := parts_of_installedConflict? hdc
    obtain ⟨⟨q, hq, hfor⟩, q', hq', hpackage⟩ := hside.resolve_left hrejected
    refine ⟨q, hq, q', hq', ⟨?_, fun hversion => ?_⟩, hactual.trans hpackage.symm, d, hd, hrequired,
      hfor⟩
    · rw [hpackage]
      exact hfor.2.1
    · have haccepts := hfor.2.2
      rw [hversion, hpackage] at haccepts
      exact hrejected haccepts
  refine ⟨_, t', hrun, rfl, hconflict, fun hagree => ?_⟩
  have hclear : m.dependencies.filterMap
      (conflict? (ps.foldl PackageStore.put store).toSource) = [] := by
    refine List.eq_nil_iff_forall_not_mem.2 fun c hc => ?_
    obtain ⟨q, hq, q', hq', hrivals, -⟩ := hconflict c hc
    exact hagree q hq q' hq' hrivals
  rw [hclear]
  rfl

/-- Two dependencies on a missing package agree, and a third is on one that is installed. -/
theorem resolvable_installs_but_rivals_agreeing :
    let main : Repository :=
      Repository.setDefault true { metadata := { name := "main" }, spec := { url := "http://h" } }
    let page := "versions:\n- version: v1.0.0\n- version: v2.0.0\n"
    let env : Surroundings :=
      { settings := {}, source := (({} : Inventory).putRepository main).toSource
        web := .ofPages true
          [("http://h/x/versions.yaml", .answer 200 none (some (Text.encode page.toList)))] }
    let m : Manifest := { name := "app", dependencies := [⟨"x", ">=1"⟩, ⟨"y", "^3"⟩, ⟨"x", ""⟩] }
    let store := PackageStore.ofList [installing ⟨⟨"y", "v3.1.0"⟩, false⟩]
    let v : Validation :=
      { status := .resolvable
        requirements := [⟨⟨"x", "v2.0.0"⟩, false⟩, ⟨⟨"x", "v2.0.0"⟩, false⟩] }
    ((ofCluster env store.toSource m "").run {}).1.toOption = some v ∧
      ∃ t, (ofCluster env ((v.requirements.map installing).foldl PackageStore.put store).toSource
        m "").run {} = (.ok {}, t) := by
  intro main page env m store v
  have hfirst : ((ofCluster env store.toSource m "").run {}).1.toOption = some v := by
    decide +kernel
  obtain ⟨w, t, hrun, -, -, hclear⟩ := resolvable_installs_but_rivals env env store m ""
    (Run.eq_ok_of_toOption hfirst) rfl (installs_map_installing v.requirements) {}
  refine ⟨hfirst, t, ?_⟩
  rw [hclear (by simp [v, Rivals])] at hrun
  exact hrun

/-- Two dependencies on a missing package want what the other excludes. Each is resolved, but not
both: whatever is installed for them, the manifest conflicts with it. -/
theorem resolvable_yet_in_conflict :
    let main : Repository :=
      Repository.setDefault true { metadata := { name := "main" }, spec := { url := "http://h" } }
    let page := "versions:\n- version: v1.0.0\n- version: v2.0.0\n"
    let env : Surroundings :=
      { settings := {}, source := (({} : Inventory).putRepository main).toSource
        web := .ofPages true
          [("http://h/x/versions.yaml", .answer 200 none (some (Text.encode page.toList)))] }
    let m : Manifest := { name := "app", dependencies := [⟨"x", "<2"⟩, ⟨"x", ">=2"⟩] }
    let store : PackageStore := {}
    let v : Validation :=
      { status := .resolvable
        requirements := [⟨⟨"x", "v1.0.0"⟩, false⟩, ⟨⟨"x", "v2.0.0"⟩, false⟩] }
    ((ofCluster env store.toSource m "").run {}).1.toOption = some v ∧
      (∃ ps, Installs v.requirements ps) ∧
      ∀ ps, Installs v.requirements ps → ∃ w t,
        (ofCluster env (ps.foldl PackageStore.put store).toSource m "").run {} = (.ok w, t) ∧
          w.status = .conflict := by
  intro main page env m store v
  have hfirst : ((ofCluster env store.toSource m "").run {}).1.toOption = some v := by
    decide +kernel
  refine ⟨hfirst, ⟨_, installs_map_installing v.requirements⟩, fun ps hps => ?_⟩
  obtain ⟨p, hp, q, hq, hpackage⟩ := found_of_required hps store List.mem_cons_self
  have hinstalled : ∀ d ∈ m.dependencies, ∃ p,
      (ps.foldl PackageStore.put store).toSource.clusterPackage d.name = .ok p := by
    simpa [m] using ⟨p, hp⟩
  obtain ⟨t, hrun⟩ := ofCluster_of_installed env "" hinstalled {}
  have hrejected : ∃ d ∈ m.dependencies, d.name = "x" ∧ ¬ d.Accepts p.desiredVersion := by
    rcases List.mem_pair.1 hq with rfl | rfl
    · refine ⟨⟨"x", ">=2"⟩, by simp [m], rfl, ?_⟩
      rw [← (PackageVersion.mk.inj hpackage).2]
      decide +kernel
    · refine ⟨⟨"x", "<2"⟩, by simp [m], rfl, ?_⟩
      rw [← (PackageVersion.mk.inj hpackage).2]
      decide +kernel
  obtain ⟨d, hd, hname, hrejected⟩ := hrejected
  obtain ⟨c, hc⟩ : ∃ c, installedConflict? d p = some c :=
    Option.ne_none_iff_exists'.1 fun hnone =>
      hrejected ((installedConflict?_eq_none_iff d p).1 hnone)
  have hmem : c ∈ m.dependencies.filterMap
      (conflict? (ps.foldl PackageStore.put store).toSource) := by
    refine List.mem_filterMap.2 ⟨d, hd, ?_⟩
    rw [conflict?, hname, hp]
    exact hc
  exact ⟨_, t, hrun, status_eq_conflict (List.ne_nil_of_mem hmem)⟩

end DependencyValidator
end ClusterPackages
