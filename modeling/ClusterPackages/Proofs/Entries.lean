import ClusterPackages.Proofs.Planning
import Mathlib.Data.List.Flatten
import Mathlib.Data.List.Perm.Basic

/-! The entries of a plan, those that conflicts stand against among them. A selected package has one
entry if what its repository shows is newer than what it wants, whether it conflicts or not; else it
has one only in an explicit plan, without a version. -/

namespace ClusterPackages.Transaction

/-- All updates of a plan, those that conflicts stand against after the others. -/
def entries (t : Transaction) : List UpdateItem := t.items ++ t.conflictItems.map ConflictItem.item

/-! ## Findings -/

/-- The entry that a finding makes. -/
def Finding.entry? (isExplicit : Bool) (f : Finding) : Option UpdateItem :=
  match f.validation with
  | some _ => some { package := f.package, version := f.latest }
  | none => if isExplicit then some { package := f.package, version := "" } else none

theorem Finding.items_append_conflictItems (isExplicit : Bool) (f : Finding) :
    f.items isExplicit ++ f.conflictItems.map ConflictItem.item = (f.entry? isExplicit).toList := by
  unfold Finding.items Finding.conflictItems Finding.entry?
  cases f.validation with
  | none => cases isExplicit <;> rfl
  | some v => by_cases h : v.conflicts = [] <;> simp [h]

/-- Up to their order the entries of a plan are those that its findings make. -/
theorem entries_foldl_take (isExplicit : Bool) (fs : List Finding) :
    (fs.foldl (take isExplicit) {}).entries.Perm (fs.filterMap (Finding.entry? isExplicit)) := by
  have hconflicts : (fs.flatMap Finding.conflictItems).map ConflictItem.item =
      fs.flatMap fun f => f.conflictItems.map ConflictItem.item := List.map_flatMap
  rw [foldl_take, entries, List.nil_append, List.nil_append, hconflicts,
    List.filterMap_eq_flatMap_toList]
  simp only [← Finding.items_append_conflictItems]
  exact List.flatMap_append_perm fs _ _

variable {env : Surroundings} {validate : DependencyValidator} {s s' : PlanState}

theorem Found.package_eq {p : InstalledPackage} {f : Finding} (h : Found env validate s p f s') :
    f.package = p := by
  cases h <;> rfl

/-- A package is validated exactly if what its repository shows is newer. -/
theorem Found.newer_iff {p : InstalledPackage} {f : Finding} (h : Found env validate s p f s') :
    f.validation.isSome = isUpgradable f.package.desiredVersion f.latest := by
  cases h with
  | current lookup read first current => exact current.symm
  | newer lookup read first newer fetched validated => exact newer.symm

theorem Findings.map_package {ps : List InstalledPackage} {fs : List Finding}
    (h : Findings env validate s ps fs s') : fs.map Finding.package = ps := by
  induction h with
  | nil => rfl
  | cons head tail ih => exact congrArg₂ List.cons head.package_eq ih

theorem Findings.newer_iff {ps : List InstalledPackage} {fs : List Finding}
    (h : Findings env validate s ps fs s') :
    ∀ f ∈ fs, f.validation.isSome = isUpgradable f.package.desiredVersion f.latest := by
  induction h with
  | nil => simp
  | cons head tail ih => exact List.forall_mem_cons.2 ⟨head.newer_iff, ih⟩

/-- An entry is an update to a newer version, or an explicit plan's entry of a package that is up to
date. -/
theorem Findings.mem_entries_iff {ps : List InstalledPackage} {fs : List Finding}
    (h : Findings env validate s ps fs s') (isExplicit : Bool) (i : UpdateItem) :
    i ∈ (fs.foldl (take isExplicit) {}).entries ↔ ∃ f ∈ fs, i.package = f.package ∧
      (i.version = f.latest ∧ isUpgradable f.package.desiredVersion f.latest = true ∨
        isExplicit = true ∧ i.version = "" ∧
          isUpgradable f.package.desiredVersion f.latest = false) := by
  obtain ⟨package, version⟩ := i
  rw [(entries_foldl_take isExplicit fs).mem_iff, List.mem_filterMap]
  refine exists_congr fun f => and_congr_right fun hf => ?_
  have hnewer := h.newer_iff f hf
  unfold Finding.entry?
  cases hv : f.validation with
  | none =>
    rw [hv] at hnewer
    cases isExplicit <;> simp [← hnewer, eq_comm]
  | some v =>
    rw [hv] at hnewer
    simp [← hnewer, eq_comm]

/-! ## One package to a given version -/

/-- How planning the update of one package to a given version ends. -/
inductive PlannedFor (env : Surroundings) (validate : DependencyValidator) (s : PlanState)
    (p : InstalledPackage) (version : String) : Except ClusterError Transaction → PlanState → Prop
  /-- The version is not newer, and nobody is asked. -/
  | refused (older : isUpgradable p.desiredVersion version = false) :
      PlannedFor env validate s p version (.error (.downgradeOrEqual p.desiredVersion version)) s
  | unserved {repo s₁ e s₂} (newer : isUpgradable p.desiredVersion version = true)
      (lookup : (Plan.onRepos (Clientset.forPackage env p)).run s = (.ok repo, s₁))
      (failed : (Plan.onClient (Clientset.call repo fun c =>
        c.manifest env.web p.packageName version)).run s₁ = (.error (.repo e), s₂)) :
      PlannedFor env validate s p version (.error (.repo e)) s₂
  | unvalidated {repo s₁ manifest s₂ e s₃} (newer : isUpgradable p.desiredVersion version = true)
      (lookup : (Plan.onRepos (Clientset.forPackage env p)).run s = (.ok repo, s₁))
      (fetched : (Plan.onClient (Clientset.call repo fun c =>
        c.manifest env.web p.packageName version)).run s₁ = (.ok manifest, s₂))
      (failed : (validate manifest version).run s₂ = (.error e, s₃)) :
      PlannedFor env validate s p version (.error e) s₃
  | planned {repo s₁ manifest s₂ v s₃} (newer : isUpgradable p.desiredVersion version = true)
      (lookup : (Plan.onRepos (Clientset.forPackage env p)).run s = (.ok repo, s₁))
      (fetched : (Plan.onClient (Clientset.call repo fun c =>
        c.manifest env.web p.packageName version)).run s₁ = (.ok manifest, s₂))
      (validated : (validate manifest version).run s₂ = (.ok v, s₃)) :
      PlannedFor env validate s p version (.ok (Transaction.add {} { package := p, version } v)) s₃

/-- A call on a repository fails with an error of repositories. -/
theorem eq_repo_of_onClient {α : Type} {x : Clientset.Lookup (Except RepoError α)}
    {e : ClusterError} (h : (Plan.onClient x).run s = (.error e, s')) : ∃ e', e = .repo e' := by
  rw [Plan.onClient_run] at h
  cases hx : (x.run s.repos).1 with
  | error e' =>
    rw [hx] at h
    exact ⟨e', (Except.error.inj (Prod.mk.inj h).1).symm⟩
  | ok a =>
    rw [hx] at h
    cases h

theorem prepareFor_of_refused {p : InstalledPackage} {version : String}
    (older : isUpgradable p.desiredVersion version = false) (s : PlanState) :
    (prepareFor env validate p version).run s =
      (.error (.downgradeOrEqual p.desiredVersion version), s) := by
  unfold prepareFor
  rw [older]
  rfl

theorem plannedFor (env : Surroundings) (validate : DependencyValidator) (s : PlanState)
    (p : InstalledPackage) (version : String) :
    PlannedFor env validate s p version ((prepareFor env validate p version).run s).1
      ((prepareFor env validate p version).run s).2 := by
  cases newer : isUpgradable p.desiredVersion version with
  | false =>
    rw [prepareFor_of_refused newer]
    exact .refused newer
  | true =>
    unfold prepareFor
    simp only [newer, Bool.not_true, Bool.false_eq_true, if_false]
    have lookup := Plan.onRepos_run (Clientset.forPackage env p) s
    rw [Run.bind_of_ok lookup]
    rcases fetched : (Plan.onClient (Clientset.call ((Clientset.forPackage env p).run s.repos).1
      fun c => c.manifest env.web p.packageName version)).run
        { s with repos := ((Clientset.forPackage env p).run s.repos).2 } with ⟨e | manifest, s₂⟩
    · obtain ⟨e', rfl⟩ := eq_repo_of_onClient fetched
      rw [Run.bind_of_error fetched]
      exact .unserved newer lookup fetched
    · rw [Run.bind_of_ok fetched]
      rcases validated : (validate manifest version).run s₂ with ⟨e | v, s₃⟩
      · rw [Run.bind_of_error validated]
        exact .unvalidated newer lookup fetched validated
      · rw [Run.bind_of_ok validated]
        exact .planned newer lookup fetched validated

/-- A plan for one package has one entry, for the version asked for. -/
theorem entries_add (p : InstalledPackage) (version : String) (v : Validation) :
    (Transaction.add {} { package := p, version } v).entries = [{ package := p, version }] := by
  unfold entries add
  cases v.hasConflicts <;> rfl

/-! ## Surroundings with one repository -/

/-- One default repository, which has one manifest for all packages in all versions. -/
def surroundingsOf (catalog manifest : String) : Surroundings where
  settings := {}
  source := (Inventory.putRepository {} (Repository.setDefault true
    { metadata := { name := "main" }, spec := { url := "http://h" } })).toSource
  web := fun url => .answer 200 none (some (Text.encode
    (if url = "http://h/index.yaml" then catalog else manifest).toList))

end ClusterPackages.Transaction
