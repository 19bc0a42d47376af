import ClusterPackages.Proofs.TextMap
import ClusterPackages.Update
import Mathlib.Tactic.Common

/-! Where the objects of a store in memory are. `WellKeyed` holds of every store: each object is
kept under its own name and namespace. So an object that is listed is the one stored at its place,
and a write at one place leaves every other place alone. -/

namespace ClusterPackages.PackageStore

/-! ## Places -/

theorem IsSamePlace.refl (p : InstalledPackage) : IsSamePlace p p := ⟨rfl, rfl, fun _ => rfl⟩

theorem IsSamePlace.symm {p q : InstalledPackage} (h : IsSamePlace p q) : IsSamePlace q p :=
  ⟨h.1.symm, h.2.1.symm, fun hq => (h.2.2 (h.1.trans hq)).symm⟩

theorem IsSamePlace.trans {p q r : InstalledPackage} (h : IsSamePlace p q) (h' : IsSamePlace q r) :
    IsSamePlace p r :=
  ⟨h.1.trans h'.1, h.2.1.trans h'.2.1, fun hp => (h.2.2 hp).trans (h'.2.2 (h.1.symm.trans hp))⟩

theorem stored?_congr (s : PackageStore) {p q : InstalledPackage} (h : IsSamePlace p q) :
    s.stored? p = s.stored? q := by
  obtain ⟨hkind, hname, hns⟩ := h
  unfold stored?
  rw [← hkind, ← hname]
  cases hp : p.kind with
  | clusterPackage => rfl
  | package => rw [hns hp]

/-! ## Stores -/

/-- What the map of one kind of object may hold under a key. -/
structure IsKeyed (kind : PackageKind) (ns : String) (m : TextMap InstalledPackage) : Prop where
  sorted : m.IsSorted
  kind_eq : ∀ e ∈ m, e.2.kind = kind
  name_eq : ∀ e ∈ m, e.2.name = e.1
  ns_eq : kind = .package → ∀ e ∈ m, namespaceOf e.2 = ns

/-- Each object is kept under its own name and namespace, in the part for its kind. -/
structure WellKeyed (s : PackageStore) : Prop where
  cluster : IsKeyed .clusterPackage "" s.clusterPackages
  sorted : s.packages.IsSorted
  inside : ∀ e ∈ s.packages, IsKeyed .package e.1 e.2

theorem isKeyed_nil (kind : PackageKind) (ns : String) : IsKeyed kind ns [] :=
  ⟨TextMap.isSorted_nil, by simp, by simp, by simp⟩

theorem isKeyed_insert {kind : PackageKind} {ns : String} {m : TextMap InstalledPackage}
    (h : IsKeyed kind ns m) {p : InstalledPackage} (hk : p.kind = kind)
    (hns : kind = .package → namespaceOf p = ns) : IsKeyed kind ns (m.insert p.name p) := by
  refine ⟨TextMap.isSorted_insert h.sorted _ _, fun e he => ?_, fun e he => ?_, fun hp e he => ?_⟩
  all_goals rcases TextMap.mem_of_mem_insert he with rfl | he
  · exact hk
  · exact h.kind_eq e he
  · rfl
  · exact h.name_eq e he
  · exact hns hp
  · exact h.ns_eq hp e he

theorem wellKeyed_of_empty {s : PackageStore} (hc : s.clusterPackages = []) (hp : s.packages = []) :
    WellKeyed s := by
  refine ⟨hc ▸ isKeyed_nil _ _, hp ▸ TextMap.isSorted_nil, ?_⟩
  simp [hp]

/-- Only the objects count: not what refuses updates, the scripts or when updates are installed. -/
theorem WellKeyed.of_eq {s t : PackageStore} (h : WellKeyed s)
    (hc : t.clusterPackages = s.clusterPackages) (hp : t.packages = s.packages) : WellKeyed t :=
  ⟨hc ▸ h.cluster, hp ▸ h.sorted, hp ▸ h.inside⟩

theorem WellKeyed.put {s : PackageStore} (h : WellKeyed s) (p : InstalledPackage) :
    WellKeyed (s.put p) := by
  unfold PackageStore.put
  cases hk : p.kind with
  | clusterPackage => exact ⟨isKeyed_insert h.cluster hk (by simp), h.sorted, h.inside⟩
  | package =>
    refine ⟨h.cluster, TextMap.isSorted_insert h.sorted _ _, fun e he => ?_⟩
    rcases TextMap.mem_of_mem_insert he with rfl | he
    · refine isKeyed_insert ?_ hk (fun _ => rfl)
      cases hin : s.packages.get? (namespaceOf p) with
      | none => exact isKeyed_nil _ _
      | some m => exact h.inside _ (TextMap.mem_of_get?_eq_some hin)
    · exact h.inside e he

theorem wellKeyed_ofList (ps : List InstalledPackage) : WellKeyed (ofList ps) := by
  suffices h : ∀ s : PackageStore, WellKeyed s → WellKeyed (ps.foldl PackageStore.put s) from
    h {} (wellKeyed_of_empty rfl rfl)
  induction ps with
  | nil => exact fun _ h => h
  | cons p ps ih => exact fun s h => ih _ (h.put p)

theorem WellKeyed.refuseUpdates {s : PackageStore} (h : WellKeyed s) (name : String) :
    WellKeyed (s.refuseUpdates name) := h.of_eq rfl rfl

theorem WellKeyed.scriptWatch {s : PackageStore} (h : WellKeyed s) (p : InstalledPackage)
    (events : List PackageEvent) : WellKeyed (s.scriptWatch p events) := h.of_eq rfl rfl

/-- What is found at a package's place belongs there. -/
theorem WellKeyed.isSamePlace {s : PackageStore} (h : WellKeyed s) {p q : InstalledPackage}
    (hq : s.stored? p = some q) : IsSamePlace q p := by
  unfold stored? at hq
  cases hk : p.kind with
  | clusterPackage =>
    simp only [hk] at hq
    have hm := TextMap.mem_of_get?_eq_some hq
    have hqk : q.kind = .clusterPackage := h.cluster.kind_eq _ hm
    exact ⟨hqk.trans hk.symm, h.cluster.name_eq _ hm, fun hp => by rw [hqk] at hp; cases hp⟩
  | package =>
    simp only [hk] at hq
    obtain ⟨m, hin, hq⟩ := Option.bind_eq_some_iff.1 hq
    have hkeyed := h.inside _ (TextMap.mem_of_get?_eq_some hin)
    have hm := TextMap.mem_of_get?_eq_some hq
    exact ⟨(hkeyed.kind_eq _ hm).trans hk.symm, hkeyed.name_eq _ hm, fun _ => hkeyed.ns_eq rfl _ hm⟩

/-- A cluster-wide object that is listed is the one stored at its place. -/
theorem WellKeyed.stored?_of_mem_cluster {s : PackageStore} (h : WellKeyed s)
    {e : String × InstalledPackage} (he : e ∈ s.clusterPackages) : s.stored? e.2 = some e.2 := by
  unfold stored?
  rw [h.cluster.kind_eq e he, h.cluster.name_eq e he]
  exact (TextMap.get?_eq_some_iff h.cluster.sorted _ _).2 he

theorem WellKeyed.stored?_of_mem_inside {s : PackageStore} (h : WellKeyed s)
    {d : String × TextMap InstalledPackage} (hd : d ∈ s.packages)
    {e : String × InstalledPackage} (he : e ∈ d.2) : s.stored? e.2 = some e.2 := by
  have hkeyed := h.inside d hd
  unfold stored?
  simp only [hkeyed.kind_eq e he]
  rw [hkeyed.name_eq e he, hkeyed.ns_eq rfl e he, (TextMap.get?_eq_some_iff h.sorted _ _).2 hd]
  exact (TextMap.get?_eq_some_iff hkeyed.sorted _ _).2 he

end ClusterPackages.PackageStore
