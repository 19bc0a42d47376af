import ClusterPackages.Proofs.Entries
import ClusterPackages.Proofs.Installable
import Mathlib.Data.List.Infix

/-! What a plan requires beside its updates. Each requirement that some update without conflicts
reports is in the plan once (`IsOnceEach`), where it was first reported: taking in one more report
either finds it there or puts it last. A validation against the cluster requires nothing that the
cluster has. -/

namespace ClusterPackages

/-! ## Lists without repetition -/

/-- The members of a list, once each, in the order in which they first occur. -/
structure IsOnceEach {α : Type} [DecidableEq α] (xs ys : List α) : Prop where
  mem_iff : ∀ x, x ∈ ys ↔ x ∈ xs
  nodup : ys.Nodup
  ordered : ys.Pairwise fun x y => xs.idxOf x < xs.idxOf y

namespace IsOnceEach

/-- One more report is there already, or comes last. -/
theorem addNew {xs ys : List Prerequisite} (h : IsOnceEach xs ys) (x : Prerequisite) :
    IsOnceEach (xs ++ [x]) (Transaction.addNew ys x) := by
  have hfirst {y : Prerequisite} (hy : y ∈ ys) : (xs ++ [x]).idxOf y = xs.idxOf y :=
    List.idxOf_append_of_mem ((h.mem_iff y).1 hy)
  have hordered : ys.Pairwise fun y z => (xs ++ [x]).idxOf y < (xs ++ [x]).idxOf z :=
    h.ordered.imp_of_mem fun hy hz hlt => by rwa [hfirst hy, hfirst hz]
  unfold Transaction.addNew
  by_cases hx : x ∈ ys
  · rw [if_pos (by simpa using hx)]
    refine ⟨fun y => ?_, h.nodup, hordered⟩
    rw [h.mem_iff, List.mem_append, List.mem_singleton]
    exact ⟨.inl, fun hy => hy.elim id fun heq => heq ▸ (h.mem_iff x).1 hx⟩
  · rw [if_neg (by simpa using hx)]
    have hnew : x ∉ xs := fun hmem => hx ((h.mem_iff x).2 hmem)
    refine ⟨fun y => ?_, List.concat_eq_append ▸ h.nodup.concat hx, ?_⟩
    · rw [List.mem_append, List.mem_append, h.mem_iff]
    · refine List.pairwise_append.2 ⟨hordered, List.pairwise_singleton _ _, fun y hy z hz => ?_⟩
      obtain rfl := List.mem_singleton.1 hz
      rw [hfirst hy, List.idxOf_append_of_notMem hnew, List.idxOf_cons_self]
      exact List.idxOf_lt_length_of_mem ((h.mem_iff y).1 hy)

theorem foldl_addNew (xs : List Prerequisite) :
    IsOnceEach xs (xs.foldl Transaction.addNew []) := by
  induction xs using List.reverseRecOn with
  | nil => exact ⟨fun _ => .rfl, .nil, .nil⟩
  | append_singleton xs x ih =>
    rw [List.foldl_concat]
    exact ih.addNew x

end IsOnceEach

/-! ## What the cluster has -/

open DependencyValidator

theorem isAbsent_toSource_iff (store : PackageStore) (name : String) :
    IsAbsent store.toSource name ↔ store.clusterPackages.get? name = none := by
  unfold IsAbsent PackageStore.toSource
  dsimp only
  cases store.clusterPackages.get? name with
  | none => exact ⟨fun _ => rfl, fun _ => ⟨_, rfl, rfl⟩⟩
  | some p => simp

/-- A validation against the cluster requires only what the cluster does not have. -/
theorem DependencyValidator.isAbsent_of_validated {env : Surroundings} {source : PackageSource}
    {m : Manifest} {version : String} {s t : PlanState} {v : Validation}
    (h : (ofCluster env source m version).run s = (.ok v, t)) :
    ∀ q ∈ v.requirements, IsAbsent source q.package.name := by
  obtain ⟨findings, hjudged, rfl⟩ := judged_of_ofCluster h
  exact isAbsent_of_required hjudged

/-! ## Plans -/

namespace Transaction

variable {env : Surroundings} {validate : DependencyValidator} {s s' : PlanState}

theorem Findings.exists_validated {ps : List InstalledPackage} {fs : List Finding}
    (h : Findings env validate s ps fs s') {f : Finding} (hf : f ∈ fs) {v : Validation}
    (hv : f.validation = some v) :
    ∃ manifest s₁ s₂, (validate manifest f.latest).run s₁ = (.ok v, s₂) := by
  induction h with
  | nil => cases hf
  | cons head tail ih =>
    rcases List.mem_cons.1 hf with rfl | hf
    · cases head with
      | current => cases hv
      | newer _ _ _ _ _ validated =>
        obtain rfl := Option.some.inj hv
        exact ⟨_, _, _, validated⟩
    · exact ih hf

theorem Finding.mem_requirements_iff (f : Finding) (q : Prerequisite) :
    q ∈ f.requirements ↔ ∃ v, f.validation = some v ∧ v.conflicts = [] ∧ q ∈ v.requirements := by
  unfold Finding.requirements
  cases f.validation with
  | none => simp
  | some v => by_cases h : v.conflicts = [] <;> simp [h]

/-- A plan requires what the validations without conflicts report, and nothing else, once each and in
the order in which it is first reported: package by package, and within a validation in its own
order. If packages are validated against a cluster, none of it is there. -/
theorem requirements_once_in_order (env : Surroundings) (source : PackageSource)
    (validate : DependencyValidator) (selections : List PackageSelection) (s s' : PlanState)
    (t : Transaction) (planned : (prepare env source validate selections).run s = (.ok t, s')) :
    ∃ pss fs, selections.mapM (PackageSelection.resolved source) = .ok pss ∧
      Findings env validate ((PackageSelection.getAll source selections).run s).2 pss.flatten fs s' ∧
      IsOnceEach (fs.flatMap Finding.requirements) t.requirements ∧
      (∀ q, q ∈ t.requirements ↔
        ∃ f ∈ fs, ∃ v, f.validation = some v ∧ v.conflicts = [] ∧ q ∈ v.requirements) ∧
      (∀ env' source', validate = .ofCluster env' source' →
        ∀ q ∈ t.requirements, IsAbsent source' q.package.name) ∧
      ∀ env' store, validate = .ofCluster env' (PackageStore.toSource store) →
        ∀ q ∈ t.requirements, store.clusterPackages.get? q.package.name = none := by
  obtain ⟨pss, fs, hresolved, hfound, rfl⟩ := (prepare_eq_ok_iff source selections s s' t).1 planned
  rw [foldl_take]
  have honce : IsOnceEach (fs.flatMap Finding.requirements)
      ((fs.flatMap Finding.requirements).foldl addNew []) := .foldl_addNew _
  have hreported (q : Prerequisite) : q ∈ (fs.flatMap Finding.requirements).foldl addNew [] ↔
      ∃ f ∈ fs, ∃ v, f.validation = some v ∧ v.conflicts = [] ∧ q ∈ v.requirements := by
    simp only [honce.mem_iff, List.mem_flatMap, Finding.mem_requirements_iff]
  have habsent (env' : Surroundings) (source' : PackageSource)
      (hvalidate : validate = .ofCluster env' source') :
      ∀ q ∈ (fs.flatMap Finding.requirements).foldl addNew [], IsAbsent source' q.package.name := by
    intro q hq
    obtain ⟨f, hf, v, hv, -, hqv⟩ := (hreported q).1 hq
    obtain ⟨manifest, s₁, s₂, hrun⟩ := hfound.exists_validated hf hv
    rw [hvalidate] at hrun
    exact isAbsent_of_validated hrun q hqv
  exact ⟨pss, fs, hresolved, hfound, honce, hreported, habsent, fun env' store hvalidate q hq =>
    (isAbsent_toSource_iff store _).1 (habsent env' _ hvalidate q hq)⟩

/-- Two updates require one package, and a third has a dependency that cannot be had, so what else it
would require is left out. -/
theorem requirements_once_in_order_of_three :
    let main : Repository :=
      Repository.setDefault true { metadata := { name := "main" }, spec := { url := "http://h" } }
    let page (text : String) : Reply := .answer 200 none (some (Text.encode text.toList))
    let depending (names : List String) : Reply := page
      ("name: app\ndependencies:\n" ++ String.join (names.map fun name => "- name: " ++ name ++ "\n"))
    let catalog := "packages:\n- name: a\n  latestVersion: v2.0.0\n- name: b\n" ++
      "  latestVersion: v2.0.0\n- name: c\n  latestVersion: v2.0.0\n"
    let env : Surroundings :=
      { settings := {}, source := (({} : Inventory).putRepository main).toSource
        web := .ofPages true
          [("http://h/index.yaml", page catalog),
           ("http://h/x/versions.yaml", page "versions:\n- version: v1.0.0\n"),
           ("http://h/y/versions.yaml", page "versions:\n- version: v3.0.0\n"),
           ("http://h/w/versions.yaml", page "versions:\n- version: v4.0.0\n"),
           ("http://h/a/v2.0.0/package.yaml", depending ["y", "x"]),
           ("http://h/b/v2.0.0/package.yaml", depending ["w", "nowhere"]),
           ("http://h/c/v2.0.0/package.yaml", depending ["x"])] }
    let package (name : String) : InstalledPackage :=
      { kind := .clusterPackage, metadata := { name }
        spec := { packageInfo := { name, version := "v1.0.0" } } }
    let store := PackageStore.ofList [package "a", package "b", package "c"]
    let selections : List PackageSelection := [.exact [package "a", package "b", package "c"]]
    ∃ t s', (prepare env store.toSource (.ofCluster env store.toSource) selections).run {} = (.ok t, s') ∧
      t.requirements = [⟨⟨"y", "v3.0.0"⟩, false⟩, ⟨⟨"x", "v1.0.0"⟩, false⟩] ∧
      t.conflictItems.length = 1 ∧ t.requirements.Nodup ∧
      ∀ q ∈ t.requirements, store.clusterPackages.get? q.package.name = none := by
  intro main page depending catalog env package store selections
  have hplan : ((prepare env store.toSource (.ofCluster env store.toSource) selections).run
      {}).1.toOption.map (fun t => (t.requirements, t.conflictItems.length)) =
        some ([⟨⟨"y", "v3.0.0"⟩, false⟩, ⟨⟨"x", "v1.0.0"⟩, false⟩], 1) := by
    decide +kernel
  obtain ⟨t, ht, heq⟩ := Option.map_eq_some_iff.1 hplan
  obtain ⟨hrequirements, hconflicts⟩ := Prod.mk.inj heq
  have hrun := Run.eq_ok_of_toOption ht
  obtain ⟨_, _, -, -, honce, -, -, habsent⟩ := requirements_once_in_order env store.toSource
    (.ofCluster env store.toSource) selections {} _ t hrun
  exact ⟨t, _, hrun, hrequirements, hconflicts, honce.nodup, habsent env store rfl⟩

end Transaction
end ClusterPackages
