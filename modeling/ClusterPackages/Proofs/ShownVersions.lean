import ClusterPackages.Proofs.Entries
import ClusterPackages.Proofs.Highest
import ClusterPackages.PackageStore

/-! Which versions a plan names. The empty text is no version, and so it is newer than any other
text: a package whose catalog shows no version is planned to the empty one, in which an entry looks
like one of a package that is up to date. Plans name versions as far as catalogs do. -/

namespace ClusterPackages

theorem isUpgradable_empty_iff (installed : String) :
    isUpgradable installed "" = true ↔ installed ≠ "" := by
  rw [isUpgradable_of_unreadable (.inr parse?_empty)]
  exact bne_iff_ne

namespace Transaction

/-- Without explicit selections a plan has the packages for which something newer is shown. -/
theorem Findings.mem_entries_implicit_iff {env : Surroundings} {validate : DependencyValidator}
    {s s' : PlanState} {ps : List InstalledPackage} {fs : List Finding}
    (h : Findings env validate s ps fs s') (i : UpdateItem) :
    i ∈ (fs.foldl (take false) {}).entries ↔ ∃ f ∈ fs, i.package = f.package ∧
      i.version = f.latest ∧ isUpgradable f.package.desiredVersion f.latest = true := by
  rw [h.mem_entries_iff false i]
  simp

theorem isEmpty_iff (t : Transaction) : t.isEmpty = true ↔ ∀ i ∈ t.items, i.version = "" := by
  simp [isEmpty, UpdateItem.isRequired]

theorem isEmpty_iff_of_versions {t : Transaction} (h : ∀ i ∈ t.entries, i.version ≠ "") :
    t.isEmpty = true ↔ t.items = [] := by
  rw [isEmpty_iff]
  constructor
  · intro hempty
    refine List.eq_nil_iff_forall_not_mem.2 fun i hi => ?_
    exact h i (List.mem_append_left _ hi) (hempty i hi)
  · intro hnil
    simp [hnil]

/-- Each entry of a plan that nothing explicit was selected for is an update to something newer. It
has no version exactly if the package wants one and its catalog shows none. An entry for one package
has the version asked for, which is the empty one only if the package wants another. -/
theorem versions_named_as_shown (env : Surroundings) (source : PackageSource)
    (validate : DependencyValidator) :
    (∀ (selections : List PackageSelection) (s s' : PlanState) (t : Transaction),
      selections.any PackageSelection.isExplicit = false →
      (prepare env source validate selections).run s = (.ok t, s') →
      (∀ i ∈ t.entries, isUpgradable i.package.desiredVersion i.version = true) ∧
      ∃ pss fs, selections.mapM (PackageSelection.resolved source) = .ok pss ∧
        Findings env validate ((PackageSelection.getAll source selections).run s).2 pss.flatten fs s' ∧
        (∀ p, ⟨p, ""⟩ ∈ t.entries ↔
          p.desiredVersion ≠ "" ∧ ∃ f ∈ fs, f.package = p ∧ f.latest = "") ∧
        ((∀ f ∈ fs, f.latest ≠ "") →
          (∀ i ∈ t.entries, i.version ≠ "") ∧ (t.isEmpty = true ↔ t.items = []))) ∧
    ∀ (p : InstalledPackage) (version : String) (s s' : PlanState) (t : Transaction),
      (prepareFor env validate p version).run s = (.ok t, s') →
      t.entries = [⟨p, version⟩] ∧ isUpgradable p.desiredVersion version = true ∧
        (version = "" → p.desiredVersion ≠ "") ∧
        (version ≠ "" → (t.isEmpty = true ↔ t.items = [])) := by
  refine ⟨fun selections s s' t implicit plan => ?_, fun p version s s' t plan => ?_⟩
  · obtain ⟨pss, fs, hpss, hfs, rfl⟩ := (prepare_eq_ok_iff _ _ _ _ _).1 plan
    rw [implicit]
    refine ⟨fun i hi => ?_, pss, fs, hpss, hfs, fun p => ?_, fun shown => ?_⟩
    · obtain ⟨f, -, hp, hv, hnewer⟩ := (hfs.mem_entries_implicit_iff i).1 hi
      rw [hp, hv]
      exact hnewer
    · rw [hfs.mem_entries_implicit_iff]
      constructor
      · rintro ⟨f, hf, rfl, hv, hnewer⟩
        rw [← hv] at hnewer
        exact ⟨(isUpgradable_empty_iff _).1 hnewer, f, hf, rfl, hv.symm⟩
      · -- what is shown without a version counts as newer than whatever the package wants
        rintro ⟨hwants, f, hf, rfl, hv⟩
        refine ⟨f, hf, rfl, hv.symm, ?_⟩
        rw [hv]
        exact (isUpgradable_empty_iff _).2 hwants
    · have hversions : ∀ i ∈ (fs.foldl (take false) {}).entries, i.version ≠ "" := by
        intro i hi
        obtain ⟨f, hf, -, hv, -⟩ := (hfs.mem_entries_implicit_iff i).1 hi
        rw [hv]
        exact shown f hf
      exact ⟨hversions, isEmpty_iff_of_versions hversions⟩
  · have hplanned := plannedFor env validate s p version
    rw [plan] at hplanned
    cases hplanned with
    | planned newer lookup fetched validated =>
      have hentries := entries_add p version
      refine ⟨hentries _, newer, ?_, fun hversion => isEmpty_iff_of_versions fun i hi => ?_⟩
      · rintro rfl
        exact (isUpgradable_empty_iff _).1 newer
      · rw [hentries, List.mem_singleton] at hi
        rw [hi]
        exact hversion

/-- Two packages, one of which is shown without a version, and an update of the other to a version
that was asked for. -/
theorem versions_named_as_shown_two :
    let env := surroundingsOf "packages:\n- name: a\n- name: b\n  latestVersion: 2.0.0\n" "name: b\n"
    let package (name : String) : InstalledPackage :=
      { kind := .clusterPackage, metadata := { name }
        spec := { packageInfo := { name, version := "1.0.0" } } }
    let source := (PackageStore.ofList [package "a", package "b"]).toSource
    ∃ t s' u s'', (prepare env source (.ofCluster env source) [.allClusterPackages]).run {} =
        (.ok t, s') ∧
      t.items = [⟨package "a", ""⟩, ⟨package "b", "2.0.0"⟩] ∧
      (∀ i ∈ t.entries, isUpgradable i.package.desiredVersion i.version = true) ∧
      (prepareFor env (.ofCluster env source) (package "b") "3.0.0").run s' = (.ok u, s'') ∧
      u.entries = [⟨package "b", "3.0.0"⟩] ∧ (u.isEmpty = true ↔ u.items = []) := by
  intro env package source
  have plan := Run.eq_ok_of_toOption
    (x := (prepare env source (.ofCluster env source) [.allClusterPackages]).run {})
    (a := { items := [⟨package "a", ""⟩, ⟨package "b", "2.0.0"⟩] }) (by decide +kernel)
  have planFor := Run.eq_ok_of_toOption
    (x := (prepareFor env (.ofCluster env source) (package "b") "3.0.0").run
      ((prepare env source (.ofCluster env source) [.allClusterPackages]).run {}).2)
    (a := { items := [⟨package "b", "3.0.0"⟩] }) (by decide +kernel)
  obtain ⟨himplicit, hfor⟩ := versions_named_as_shown env source (.ofCluster env source)
  obtain ⟨hnewer, -⟩ := himplicit _ _ _ _ rfl plan
  obtain ⟨hentries, -, -, hempty⟩ := hfor _ _ _ _ _ planFor
  exact ⟨_, _, _, _, plan, rfl, hnewer, planFor, hentries, hempty (by simp)⟩

/-- A catalog that shows a package without a version has it planned to the empty one, although the
package is not up to date; so has an update to the empty version. -/
theorem versionless_catalog_plans_no_version :
    let env := surroundingsOf "packages:\n- name: a\n" "name: a\n"
    let a : InstalledPackage :=
      { kind := .clusterPackage, metadata := { name := "a" }
        spec := { packageInfo := { name := "a", version := "1.0.0" } } }
    let source := (PackageStore.ofList [a]).toSource
    [PackageSelection.allClusterPackages].any PackageSelection.isExplicit = false ∧
    ∃ t s' u s'', (prepare env source (.ofCluster env source) [.allClusterPackages]).run {} =
        (.ok t, s') ∧
      t.items = [⟨a, ""⟩] ∧ t.isEmpty = true ∧ t.items ≠ [] ∧
      (prepareFor env (.ofCluster env source) a "").run {} = (.ok u, s'') ∧ u.items = [⟨a, ""⟩] := by
  intro env a source
  have plan := Run.eq_ok_of_toOption
    (x := (prepare env source (.ofCluster env source) [.allClusterPackages]).run {})
    (a := { items := [⟨a, ""⟩] }) (by decide +kernel)
  have planFor := Run.eq_ok_of_toOption
    (x := (prepareFor env (.ofCluster env source) a "").run {})
    (a := { items := [⟨a, ""⟩] }) (by decide +kernel)
  exact ⟨rfl, _, _, _, _, plan, rfl, rfl, by simp, planFor, rfl⟩

end Transaction
end ClusterPackages
