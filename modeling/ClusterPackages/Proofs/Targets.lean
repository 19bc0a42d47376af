import ClusterPackages.Proofs.Entries
import ClusterPackages.Proofs.Settled
import Mathlib.Algebra.GroupWithZero.Nat
import Mathlib.Data.List.Pairwise

/-! How often a plan is about one object. Selections are resolved each on its own, and what they have
in common is planned once for each of them: an object has at most as many entries as selections
mention it, and in an explicit plan exactly as many. So a plan is about each object once if no two
selections, and no two names of one, meet. -/

namespace ClusterPackages

namespace PackageStore

/-! ## Packages at a place -/

/-- How many of some packages are at the place of a package. -/
def countAt (p : InstalledPackage) (ps : List InstalledPackage) : ℕ :=
  ps.countP fun q => decide (IsSamePlace q p)

/-- No two packages are at one place. -/
def Apart (ps : List InstalledPackage) : Prop := ps.Pairwise fun p q => ¬ IsSamePlace p q

instance (ps : List InstalledPackage) : Decidable (Apart ps) := by
  unfold Apart
  infer_instance

theorem countAt_cons (p q : InstalledPackage) (ps : List InstalledPackage) :
    countAt p (q :: ps) = countAt p ps + if IsSamePlace q p then 1 else 0 := by
  unfold countAt
  rw [List.countP_cons]
  simp only [decide_eq_true_eq]

theorem countAt_append (p : InstalledPackage) (ps qs : List InstalledPackage) :
    countAt p (ps ++ qs) = countAt p ps + countAt p qs := List.countP_append

theorem countAt_eq_zero {p : InstalledPackage} {ps : List InstalledPackage}
    (h : ∀ q ∈ ps, ¬ IsSamePlace q p) : countAt p ps = 0 := by
  refine List.countP_eq_zero.2 fun q hq => ?_
  simpa using h q hq

theorem Apart.countAt_le_one {ps : List InstalledPackage} (h : Apart ps) (p : InstalledPackage) :
    countAt p ps ≤ 1 := by
  induction ps with
  | nil => exact Nat.zero_le _
  | cons q ps ih =>
    obtain ⟨hq, hps⟩ := List.pairwise_cons.1 h
    rw [countAt_cons]
    split_ifs with hsame
    · have hothers : countAt p ps = 0 :=
        countAt_eq_zero fun r hr hrp => hq r hr (hsame.trans hrp.symm)
      rw [hothers]
    · exact ih hps

theorem Apart.countAt_eq_one {ps : List InstalledPackage} (h : Apart ps) {p q : InstalledPackage}
    (hq : q ∈ ps) (hsame : IsSamePlace q p) : countAt p ps = 1 :=
  le_antisymm (h.countAt_le_one p) (List.countP_pos_iff.2 ⟨q, hq, decide_eq_true hsame⟩)

theorem apart_of_countAt_le_one {ps : List InstalledPackage} (h : ∀ p ∈ ps, countAt p ps ≤ 1) :
    Apart ps := by
  induction ps with
  | nil => exact List.Pairwise.nil
  | cons q ps ih =>
    refine List.pairwise_cons.2 ⟨fun r hr hsame => ?_, ih fun p hp => ?_⟩
    · have hpos : 0 < countAt q ps := List.countP_pos_iff.2 ⟨r, hr, decide_eq_true hsame.symm⟩
      have htwo := h q List.mem_cons_self
      rw [countAt_cons, if_pos (IsSamePlace.refl q)] at htwo
      omega
    · have hle := h p (List.mem_cons_of_mem _ hp)
      rw [countAt_cons] at hle
      exact (Nat.le_add_right _ _).trans hle

/-! ## Lists of a store -/

theorem IsKeyed.apart {kind : PackageKind} {ns : String} {m : TextMap InstalledPackage}
    (h : IsKeyed kind ns m) : Apart (List.map Prod.snd m) := by
  refine List.pairwise_map.2 (List.Pairwise.imp_of_mem (fun {a b} ha hb hlt hsame => ?_) h.sorted)
  have hnames := hsame.2.1
  rw [h.name_eq a ha, h.name_eq b hb] at hnames
  exact hlt.ne hnames

/-- The packages of some namespaces, as they are listed. -/
def packagesOf (inside : TextMap (TextMap InstalledPackage)) : List InstalledPackage :=
  inside.flatMap fun ns => List.map Prod.snd ns.2

theorem WellKeyed.of_mem_packagesOf {s : PackageStore} (h : WellKeyed s)
    {inside : TextMap (TextMap InstalledPackage)} (hsub : List.Sublist inside s.packages)
    {p : InstalledPackage} (hp : p ∈ packagesOf inside) :
    p.kind = .package ∧ ∃ ns ∈ inside, namespaceOf p = ns.1 := by
  obtain ⟨ns, hns, hp⟩ := List.mem_flatMap.1 hp
  obtain ⟨e, he, rfl⟩ := List.mem_map.1 hp
  have hkeyed := h.inside ns (hsub.subset hns)
  exact ⟨hkeyed.kind_eq e he, ns, hns, hkeyed.ns_eq rfl e he⟩

theorem WellKeyed.apart_packagesOf {s : PackageStore} (h : WellKeyed s)
    {inside : TextMap (TextMap InstalledPackage)} (hsub : List.Sublist inside s.packages) :
    Apart (packagesOf inside) := by
  have hsorted : TextMap.IsSorted inside := List.Pairwise.sublist hsub h.sorted
  refine List.pairwise_flatMap.2 ⟨fun ns hns => (h.inside ns (hsub.subset hns)).apart, ?_⟩
  refine List.Pairwise.imp_of_mem (fun {a b} ha hb hlt x hx y hy hsame => ?_) hsorted
  obtain ⟨d, hd, rfl⟩ := List.mem_map.1 hx
  obtain ⟨e, he, rfl⟩ := List.mem_map.1 hy
  have hkeyedA := h.inside a (hsub.subset ha)
  have hkeyedB := h.inside b (hsub.subset hb)
  have hns := hsame.2.2 (hkeyedA.kind_eq d hd)
  rw [hkeyedA.ns_eq rfl d hd, hkeyedB.ns_eq rfl e he] at hns
  exact hlt.ne hns

variable {s : PackageStore} {p o : InstalledPackage}

theorem mem_of_stored?_cluster (hkind : p.kind = .clusterPackage) (stored : s.stored? p = some o) :
    o ∈ List.map Prod.snd s.clusterPackages := by
  unfold stored? at stored
  rw [hkind] at stored
  exact List.mem_map.2 ⟨_, TextMap.mem_of_get?_eq_some stored, rfl⟩

theorem exists_of_stored?_package (hkind : p.kind = .package) (stored : s.stored? p = some o) :
    ∃ m, (namespaceOf p, m) ∈ s.packages ∧ o ∈ List.map Prod.snd m := by
  unfold stored? at stored
  rw [hkind] at stored
  obtain ⟨m, hin, hget⟩ := Option.bind_eq_some_iff.1 stored
  exact ⟨m, TextMap.mem_of_get?_eq_some hin,
    List.mem_map.2 ⟨_, TextMap.mem_of_get?_eq_some hget, rfl⟩⟩

theorem mem_of_clusterPackage {name : String} (h : s.toSource.clusterPackage name = .ok o) :
    (name, o) ∈ s.clusterPackages := by
  unfold toSource at h
  dsimp only at h
  cases hget : s.clusterPackages.get? name with
  | none =>
    rw [hget] at h
    cases h
  | some q =>
    rw [hget] at h
    exact Except.ok.inj h ▸ TextMap.mem_of_get?_eq_some hget

theorem exists_of_package {ns name : String} (h : s.toSource.package ns name = .ok o) :
    ∃ m, (ns, m) ∈ s.packages ∧ (name, o) ∈ m := by
  unfold toSource at h
  dsimp only at h
  cases hget : (s.packages.get? ns).bind (TextMap.get? name) with
  | none =>
    rw [hget] at h
    cases h
  | some q =>
    rw [hget] at h
    obtain ⟨m, hin, hq⟩ := Option.bind_eq_some_iff.1 hget
    exact ⟨m, TextMap.mem_of_get?_eq_some hin, Except.ok.inj h ▸ TextMap.mem_of_get?_eq_some hq⟩

end PackageStore

open PackageStore

/-! ## Selections -/

/-- How often a selection is about the place of a package that is stored there. -/
def PackageSelection.mentions (p : InstalledPackage) : PackageSelection → ℕ
  | .exact packages => countAt p packages
  | .allClusterPackages => if p.kind = .clusterPackage then 1 else 0
  | .allPackages ns => if p.kind = .package ∧ ns.all (· == namespaceOf p) then 1 else 0
  | .clusterPackagesNamed names =>
    names.countP fun n => p.kind = .clusterPackage ∧ n = p.name
  | .packagesNamed names =>
    names.countP fun n => p.kind = .package ∧ n.namespace = namespaceOf p ∧ n.name = p.name

namespace PackageSelection

variable {s : PackageStore} {p o : InstalledPackage}

/-- Of names that are looked up one by one, those count that lead to the place. -/
theorem countAt_of_mapM {α : Type} {f : α → Except ClusterError InstalledPackage} {at? : α → Bool}
    (hat : ∀ x q, f x = .ok q → (IsSamePlace q p ↔ at? x = true)) {xs : List α}
    {ps : List InstalledPackage} (h : xs.mapM f = .ok ps) : countAt p ps = xs.countP at? := by
  rw [mapM_eq_ok_iff] at h
  induction xs generalizing ps with
  | nil =>
    obtain rfl := List.map_eq_nil_iff.1 h.symm
    rfl
  | cons x xs ih =>
    cases ps with
    | nil => cases h
    | cons q ps =>
      obtain ⟨hx, hxs⟩ := List.cons.inj h
      rw [countAt_cons, List.countP_cons, ih hxs]
      simp only [hat x q hx]

/-- The namespaces of a list of packages. -/
def chosen (s : PackageStore) : Option String → TextMap (TextMap InstalledPackage)
  | none => s.packages
  | some ns => List.filter (·.1 == ns) s.packages

theorem chosen_sublist (s : PackageStore) (ns : Option String) :
    List.Sublist (chosen s ns) s.packages := by
  cases ns with
  | none => exact List.Sublist.refl _
  | some ns => exact List.filter_sublist

theorem mem_chosen_iff (s : PackageStore) (ns : Option String)
    (e : String × TextMap InstalledPackage) :
    e ∈ chosen s ns ↔ e ∈ s.packages ∧ ns.all (· == e.1) = true := by
  cases ns with
  | none => simp [chosen]
  | some ns =>
    have hsymm : e.1 = ns ↔ ns = e.1 := eq_comm
    simp [chosen, List.mem_filter, hsymm]

theorem countAt_packagesIn (keyed : s.WellKeyed) (stored : s.stored? p = some o)
    (ns : Option String) :
    countAt p (packagesOf (chosen s ns)) =
      if p.kind = .package ∧ ns.all (· == namespaceOf p) then 1 else 0 := by
  have hsub := chosen_sublist s ns
  split_ifs with h
  · obtain ⟨hkind, hns⟩ := h
    obtain ⟨m, hin, ho⟩ := exists_of_stored?_package hkind stored
    have hmem : o ∈ packagesOf (chosen s ns) :=
      List.mem_flatMap.2 ⟨_, (mem_chosen_iff s ns _).2 ⟨hin, hns⟩, ho⟩
    exact (keyed.apart_packagesOf hsub).countAt_eq_one hmem (keyed.isSamePlace stored)
  · -- a package at the place would have brought its namespace into the list
    refine countAt_eq_zero fun q hq hqp => h ?_
    obtain ⟨hkind, e, he, hnamespace⟩ := keyed.of_mem_packagesOf hsub hq
    refine ⟨hqp.1.symm.trans hkind, ?_⟩
    rw [← hqp.2.2 hkind, hnamespace]
    exact ((mem_chosen_iff s ns e).1 he).2

theorem countAt_resolved (keyed : s.WellKeyed) (stored : s.stored? p = some o)
    {sel : PackageSelection} {ps : List InstalledPackage}
    (h : sel.resolved s.toSource = .ok ps) : countAt p ps = sel.mentions p := by
  have hsame := keyed.isSamePlace stored
  cases sel with
  | exact packages =>
    obtain rfl := Except.ok.inj h
    rfl
  | allClusterPackages =>
    obtain rfl := Except.ok.inj h
    unfold mentions
    split_ifs with hkind
    · exact keyed.cluster.apart.countAt_eq_one (mem_of_stored?_cluster hkind stored) hsame
    · refine countAt_eq_zero fun q hq hqp => hkind ?_
      obtain ⟨e, he, rfl⟩ := List.mem_map.1 hq
      exact hqp.1.symm.trans (keyed.cluster.kind_eq e he)
  | allPackages ns =>
    obtain rfl := Except.ok.inj h
    exact countAt_packagesIn keyed stored ns
  | clusterPackagesNamed names =>
    refine countAt_of_mapM (fun name q hq => ?_) h
    have hmem := mem_of_clusterPackage hq
    have hkind : q.kind = .clusterPackage := keyed.cluster.kind_eq _ hmem
    have hname : q.name = name := keyed.cluster.name_eq _ hmem
    have hsymm : PackageKind.clusterPackage = p.kind ↔ p.kind = .clusterPackage := eq_comm
    simp [IsSamePlace, hkind, hname, hsymm]
  | packagesNamed names =>
    refine countAt_of_mapM (fun n q hq => ?_) h
    obtain ⟨m, hin, hmem⟩ := exists_of_package hq
    have hkeyed := keyed.inside _ hin
    have hkind : q.kind = .package := hkeyed.kind_eq _ hmem
    have hname : q.name = n.name := hkeyed.name_eq _ hmem
    have hns : namespaceOf q = n.namespace := hkeyed.ns_eq rfl _ hmem
    have hsymm : PackageKind.package = p.kind ↔ p.kind = .package := eq_comm
    have hswap : n.name = p.name ∧ n.namespace = namespaceOf p ↔
        n.namespace = namespaceOf p ∧ n.name = p.name := and_comm
    simp [IsSamePlace, hkind, hname, hns, hsymm, hswap]

theorem countAt_flatten (keyed : s.WellKeyed) (stored : s.stored? p = some o)
    {selections : List PackageSelection} {pss : List (List InstalledPackage)}
    (h : selections.mapM (resolved s.toSource) = .ok pss) :
    countAt p pss.flatten = (selections.map (mentions p)).sum := by
  rw [mapM_eq_ok_iff] at h
  induction selections generalizing pss with
  | nil =>
    obtain rfl := List.map_eq_nil_iff.1 h.symm
    rfl
  | cons sel selections ih =>
    cases pss with
    | nil => cases h
    | cons ps pss =>
      obtain ⟨hsel, hrest⟩ := List.cons.inj h
      rw [List.flatten_cons, countAt_append, countAt_resolved keyed stored hsel, ih hrest,
        List.map_cons, List.sum_cons]

end PackageSelection

namespace Transaction

/-! ## Plans -/

/-- The packages that a plan's entries are about. -/
def targets (t : Transaction) : List InstalledPackage := t.entries.map UpdateItem.package

/-- Whether a finding makes an entry. -/
def Finding.isEntered (isExplicit : Bool) (f : Finding) : Bool := f.validation.isSome || isExplicit

theorem Finding.map_entry? (isExplicit : Bool) (f : Finding) :
    (f.entry? isExplicit).map UpdateItem.package =
      if f.isEntered isExplicit then some f.package else none := by
  unfold Finding.entry? Finding.isEntered
  cases f.validation with
  | none => cases isExplicit <;> rfl
  | some v => rfl

theorem map_package_filterMap (isExplicit : Bool) (fs : List Finding) :
    (fs.filterMap (Finding.entry? isExplicit)).map UpdateItem.package =
      (fs.filter (Finding.isEntered isExplicit)).map Finding.package := by
  induction fs with
  | nil => rfl
  | cons f fs ih =>
    have hentry := f.map_entry? isExplicit
    by_cases hin : f.isEntered isExplicit = true
    · rw [if_pos hin] at hentry
      obtain ⟨i, hi, hp⟩ := Option.map_eq_some_iff.1 hentry
      rw [List.filterMap_cons_some hi, List.filter_cons_of_pos hin, List.map_cons, List.map_cons, hp,
        ih]
    · rw [if_neg hin] at hentry
      rw [List.filterMap_cons_none (Option.map_eq_none_iff.1 hentry), List.filter_cons_of_neg hin, ih]

/-- A plan is about the packages that something newer is shown for, and about all of them if it is
explicit. -/
theorem targets_foldl_take (isExplicit : Bool) (fs : List Finding) :
    (fs.foldl (take isExplicit) {}).targets.Perm
      ((fs.filter (Finding.isEntered isExplicit)).map Finding.package) := by
  rw [← map_package_filterMap]
  exact (entries_foldl_take isExplicit fs).map _

theorem mem_of_mem_targets {isExplicit : Bool} {fs : List Finding} {p : InstalledPackage}
    (h : p ∈ (fs.foldl (take isExplicit) {}).targets) : p ∈ fs.map Finding.package :=
  (List.filter_sublist.map _).subset ((targets_foldl_take isExplicit fs).mem_iff.1 h)

theorem countAt_targets_le (isExplicit : Bool) (fs : List Finding) (p : InstalledPackage) :
    countAt p (fs.foldl (take isExplicit) {}).targets ≤ countAt p (fs.map Finding.package) :=
  ((targets_foldl_take isExplicit fs).countP_eq _).trans_le (List.filter_sublist.map _).countP_le

theorem countAt_targets_explicit (fs : List Finding) (p : InstalledPackage) :
    countAt p (fs.foldl (take true) {}).targets = countAt p (fs.map Finding.package) := by
  have hall : fs.filter (Finding.isEntered true) = fs :=
    List.filter_eq_self.2 fun f _ => Bool.or_true f.validation.isSome
  have hperm := targets_foldl_take true fs
  rw [hall] at hperm
  exact hperm.countP_eq _

/-- A plan has at most as many entries for an object as its selections mention it, and exactly as
many if one of them is explicit. If none is mentioned twice, each has one entry and is written at
most once. -/
theorem targets_as_often_as_mentioned (env : Surroundings) (store : PackageStore)
    (keyed : store.WellKeyed) (validate : DependencyValidator) (selections : List PackageSelection)
    (read : ∀ sel ∈ selections, ∀ ps, sel ≠ .exact ps) (s s' : PlanState) (t : Transaction)
    (plan : (prepare env store.toSource validate selections).run s = (.ok t, s')) :
    let mentioned := fun p => (selections.map (PackageSelection.mentions p)).sum
    (∀ p o, store.stored? p = some o → countAt p t.targets ≤ mentioned p ∧
      (selections.any PackageSelection.isExplicit = true → countAt p t.targets = mentioned p)) ∧
    ((∀ p o, store.stored? p = some o → mentioned p ≤ 1) →
      Apart t.targets ∧
        Apart ((t.items.filter UpdateItem.isRequired).map UpdateItem.package)) := by
  intro mentioned
  obtain ⟨pss, fs, hpss, hfs, rfl⟩ := (prepare_eq_ok_iff _ _ _ _ _).1 plan
  have hselected {p o : InstalledPackage} (stored : store.stored? p = some o) :
      countAt p (fs.map Finding.package) = mentioned p := by
    rw [hfs.map_package]
    exact PackageSelection.countAt_flatten keyed stored hpss
  have hle {p o : InstalledPackage} (stored : store.stored? p = some o) :
      countAt p (fs.foldl (take (selections.any PackageSelection.isExplicit)) {}).targets ≤
        mentioned p :=
    (countAt_targets_le _ fs p).trans (hselected stored).le
  refine ⟨fun p o stored => ⟨hle stored, fun explicit => ?_⟩, fun once => ?_⟩
  · rw [explicit, countAt_targets_explicit, hselected stored]
  · -- a target is stored as it stands, so that what holds of stored packages holds of it
    have hstored : ∀ p ∈ (fs.foldl (take (selections.any PackageSelection.isExplicit)) {}).targets,
        store.stored? p = some p := by
      intro p hp
      have hmem : p ∈ pss.flatten := hfs.map_package ▸ mem_of_mem_targets hp
      obtain ⟨ps, hps, hp⟩ := List.mem_flatten.1 hmem
      obtain ⟨sel, hsel, hres⟩ := exists_of_mem_mapM hpss hps
      exact PackageSelection.stored?_of_resolved keyed (read sel hsel) hres hp
    have hapart := apart_of_countAt_le_one fun p hp =>
      (hle (hstored p hp)).trans (once p p (hstored p hp))
    have hwritten : List.Sublist (List.filter UpdateItem.isRequired
        (fs.foldl (take (selections.any PackageSelection.isExplicit)) {}).items)
        (fs.foldl (take (selections.any PackageSelection.isExplicit)) {}).entries :=
      List.filter_sublist.trans (List.sublist_append_left _ _)
    exact ⟨hapart, List.Pairwise.sublist (hwritten.map _) hapart⟩

/-- All cluster packages and a package named besides, which is in a namespace. -/
theorem targets_as_often_as_mentioned_apart :
    let env := surroundingsOf "packages:\n- name: a\n  latestVersion: 2.0.0\n" "name: a\n"
    let spec : PackageSpec := { packageInfo := { name := "a", version := "1.0.0" } }
    let a : InstalledPackage := { kind := .clusterPackage, metadata := { name := "a" }, spec }
    let b : InstalledPackage :=
      { kind := .package, metadata := { name := "a", «namespace» := "n" }, spec }
    let store := ofList [a, b]
    ∃ t s', (prepare env store.toSource (.ofCluster env store.toSource)
        [.allClusterPackages, .packagesNamed [⟨"n", "a"⟩]]).run {} = (.ok t, s') ∧
      t.targets = [a, b] ∧ countAt a t.targets = 1 ∧ Apart t.targets := by
  intro env spec a b store
  have plan := Run.eq_ok_of_toOption
    (x := (prepare env store.toSource (.ofCluster env store.toSource)
      [.allClusterPackages, .packagesNamed [⟨"n", "a"⟩]]).run {})
    (a := { items := [⟨a, "2.0.0"⟩, ⟨b, "2.0.0"⟩] }) (by decide +kernel)
  refine ⟨_, _, plan, rfl, ?_⟩
  obtain ⟨hcount, hapart⟩ := targets_as_often_as_mentioned env store (wellKeyed_ofList [a, b]) _ _
    (by simp) _ _ _ plan
  have hmentioned : [PackageSelection.allClusterPackages, .packagesNamed [⟨"n", "a"⟩]].any
      PackageSelection.isExplicit = true := rfl
  refine ⟨((hcount a a (by decide +kernel)).2 hmentioned).trans (by decide +kernel),
    (hapart fun p o _ => ?_).1⟩
  cases hkind : p.kind with
  | clusterPackage => simp [PackageSelection.mentions, hkind]
  | package =>
    simp only [List.map_cons, List.map_nil, List.sum_cons, List.sum_nil,
      PackageSelection.mentions, hkind, reduceCtorEq, if_false, zero_add, add_zero]
    exact List.countP_le_length

/-- A package that is named besides all cluster packages is planned twice, and written twice. -/
theorem overlapping_selections_plan_twice :
    let env := surroundingsOf "packages:\n- name: a\n  latestVersion: 2.0.0\n" "name: a\n"
    let a : InstalledPackage :=
      { kind := .clusterPackage, metadata := { name := "a" }
        spec := { packageInfo := { name := "a", version := "1.0.0" } } }
    let store := ofList [a]
    ∃ t s' ps w, (prepare env store.toSource (.ofCluster env store.toSource)
        [.allClusterPackages, .clusterPackagesNamed ["a"]]).run {} = (.ok t, s') ∧
      t.items = [⟨a, "2.0.0"⟩, ⟨a, "2.0.0"⟩] ∧ ¬ Apart t.targets ∧
      (Update.apply false t).run { store } = (.ok ps, w) ∧ w.asked.updates = 2 := by
  intro env a store
  have plan := Run.eq_ok_of_toOption
    (x := (prepare env store.toSource (.ofCluster env store.toSource)
      [.allClusterPackages, .clusterPackagesNamed ["a"]]).run {})
    (a := { items := [⟨a, "2.0.0"⟩, ⟨a, "2.0.0"⟩] }) (by decide +kernel)
  have applied := Run.eq_ok_of_toOption
    (x := (Update.apply false { items := [⟨a, "2.0.0"⟩, ⟨a, "2.0.0"⟩] }).run { store })
    (a := [moved false "2.0.0" a, moved false "2.0.0" a]) (by decide +kernel)
  exact ⟨_, _, _, _, plan, rfl, by decide +kernel, applied, by decide +kernel⟩

end Transaction
end ClusterPackages
