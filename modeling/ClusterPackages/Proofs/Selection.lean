import ClusterPackages.Proofs.Run
import ClusterPackages.Transaction
import Mathlib.Data.List.Basic

/-! What selections resolve to. Reading them only counts what was asked (`getAll_run`), and planning
goes on with all their packages, in order, exactly if each of them resolves. -/

namespace ClusterPackages

theorem mapM_eq_ok_iff {ε α β : Type} (f : α → Except ε β) (xs : List α) (ys : List β) :
    xs.mapM f = .ok ys ↔ xs.map f = ys.map .ok := by
  induction xs generalizing ys with
  | nil => cases ys <;> simp [pure, Except.pure]
  | cons x xs ih =>
    rw [List.mapM_cons, List.map_cons]
    cases hx : f x with
    | error e => cases ys <;> simp [bind, Except.bind]
    | ok y =>
      cases hxs : xs.mapM f with
      | error e =>
        have hne : ∀ ys, xs.map f ≠ List.map .ok ys := fun ys h => by
          rw [← ih, hxs] at h
          cases h
        cases ys <;> simp [bind, Except.bind, hne]
      | ok zs =>
        have hzs := (ih zs).1 hxs
        cases ys with
        | nil => simp [bind, Except.bind, pure, Except.pure]
        | cons w ws =>
          have hws := ih ws
          rw [hxs] at hws
          simp [bind, Except.bind, pure, Except.pure, ← hws]

theorem exists_of_mem_mapM {ε α β : Type} {f : α → Except ε β} {xs : List α} {ys : List β}
    (h : xs.mapM f = .ok ys) {y : β} (hy : y ∈ ys) : ∃ x ∈ xs, f x = .ok y := by
  have hmem : Except.ok y ∈ ys.map (Except.ok : β → Except ε β) := List.mem_map_of_mem hy
  rw [← (mapM_eq_ok_iff f xs ys).1 h] at hmem
  exact List.mem_map.1 hmem

namespace Plan

variable {α : Type}

theorem answer_run (x : Except ClusterError α) (s : PlanState) : (answer x).run s = (x, s) := rfl

theorem countGet_run (s : PlanState) :
    countGet.run s = (.ok (), { s with asked := { s.asked with gets := s.asked.gets + 1 } }) := rfl

theorem onRepos_run (x : Clientset.Lookup α) (s : PlanState) :
    (onRepos x).run s = (.ok (x.run s.repos).1, { s with repos := (x.run s.repos).2 }) := rfl

theorem onClient_run (x : Clientset.Lookup (Except RepoError α)) (s : PlanState) :
    (onClient x).run s =
      ((x.run s.repos).1.mapError .repo, { s with repos := (x.run s.repos).2 }) := by
  unfold onClient
  rw [Run.bind_of_ok (onRepos_run x s)]
  rcases x.run s.repos with ⟨_ | a, t⟩ <;> rfl

end Plan

namespace PackageSelection

/-- The packages of a selection, read off the cluster. -/
def resolved (source : PackageSource) :
    PackageSelection → Except ClusterError (List InstalledPackage)
  | .exact packages => .ok packages
  | .allClusterPackages => source.clusterPackages
  | .allPackages ns => source.packages ns
  | .clusterPackagesNamed names => names.mapM source.clusterPackage
  | .packagesNamed names => names.mapM fun n => source.package n.namespace n.name

theorem getEach_run {α : Type} (get : α → Except ClusterError InstalledPackage) (names : List α)
    (s : PlanState) :
    ((getEach get names).run s).1 = names.mapM get ∧
      ((getEach get names).run s).2.repos = s.repos := by
  induction names generalizing s with
  | nil => exact ⟨rfl, rfl⟩
  | cons n names ih =>
    rw [getEach, List.mapM_cons, Run.bind_of_ok (Plan.countGet_run s)]
    set s₁ : PlanState := { s with asked := { s.asked with gets := s.asked.gets + 1 } } with hs₁
    cases hn : get n with
    | error e =>
      rw [Run.bind_of_error (Plan.answer_run _ s₁)]
      exact ⟨rfl, rfl⟩
    | ok p =>
      rw [Run.bind_of_ok (Plan.answer_run _ s₁)]
      obtain ⟨hfst, hrepos⟩ := ih s₁
      rw [Run.bind_pure_eq, hfst]
      exact ⟨by cases names.mapM get <;> rfl, hrepos⟩

theorem get_run (source : PackageSource) (sel : PackageSelection) (s : PlanState) :
    ((sel.get source).run s).1 = sel.resolved source ∧
      ((sel.get source).run s).2.repos = s.repos := by
  cases sel with
  | exact packages => exact ⟨rfl, rfl⟩
  | allClusterPackages => exact ⟨rfl, rfl⟩
  | allPackages ns => exact ⟨rfl, rfl⟩
  | clusterPackagesNamed names => exact getEach_run _ names s
  | packagesNamed names => exact getEach_run _ names s

/-- Every selection is read, and nothing is learnt about repositories by that. -/
theorem getAll_run (source : PackageSource) (sels : List PackageSelection) (s : PlanState) :
    ((getAll source sels).run s).1 = sels.map (resolved source) ∧
      ((getAll source sels).run s).2.repos = s.repos := by
  induction sels generalizing s with
  | nil => exact ⟨rfl, rfl⟩
  | cons sel sels ih =>
    obtain ⟨hsel, hrepos⟩ := get_run source sel s
    obtain ⟨hsels, hrepos'⟩ := ih ((sel.get source).run s).2
    exact ⟨congrArg₂ List.cons hsel hsels, hrepos'.trans hrepos⟩

end PackageSelection

namespace Transaction

theorem combine_eq_none_iff (es : List ClusterError) : ClusterError.combine es = none ↔ es = [] := by
  rcases es with _ | ⟨e, _ | ⟨e', es⟩⟩ <;> simp [ClusterError.combine]

/-- The errors of the selections that fail, in order. -/
def failures : List (Except ClusterError (List InstalledPackage)) → List ClusterError
  | [] => []
  | .ok _ :: found => failures found
  | .error e :: found => e :: failures found

theorem filterMap_eq_failures {f : Except ClusterError (List InstalledPackage) → Option ClusterError}
    (hok : ∀ ps, f (.ok ps) = none) (herror : ∀ e, f (.error e) = some e)
    (found : List (Except ClusterError (List InstalledPackage))) :
    found.filterMap f = failures found := by
  induction found with
  | nil => rfl
  | cons x found ih =>
    cases x with
    | ok ps => rw [List.filterMap_cons_none (hok ps), failures, ih]
    | error e => rw [List.filterMap_cons_some (herror e), failures, ih]

theorem selected_eq (found : List (Except ClusterError (List InstalledPackage))) :
    selected found = (ClusterError.combine (failures found)).elim
      (.ok (found.filterMap Except.toOption).flatten) .error := by
  unfold selected
  dsimp only
  rw [filterMap_eq_failures]
  · cases ClusterError.combine (failures found) <;> rfl
  · exact fun _ => rfl
  · exact fun _ => rfl

theorem failures_eq_nil_iff (found : List (Except ClusterError (List InstalledPackage))) :
    failures found = [] ↔ ∃ pss : List (List InstalledPackage), found = pss.map .ok := by
  induction found with
  | nil => exact ⟨fun _ => ⟨[], rfl⟩, fun _ => rfl⟩
  | cons x found ih =>
    cases x with
    | error e =>
      refine ⟨fun h => (by cases h), ?_⟩
      rintro ⟨_ | ⟨ps, pss⟩, h⟩ <;> cases h
    | ok ps =>
      rw [failures, ih]
      constructor
      · rintro ⟨pss, rfl⟩
        exact ⟨ps :: pss, rfl⟩
      · rintro ⟨_ | ⟨qs, pss⟩, h⟩
        · cases h
        · exact ⟨pss, (List.cons.inj h).2⟩

/-- Planning goes on exactly if no selection failed, with the packages of all of them. -/
theorem selected_eq_ok_iff (found : List (Except ClusterError (List InstalledPackage)))
    (ps : List InstalledPackage) :
    selected found = .ok ps ↔ ∃ pss : List (List InstalledPackage),
      found = pss.map .ok ∧ ps = pss.flatten := by
  have hflat (pss : List (List InstalledPackage)) :
      (pss.map .ok : List (Except ClusterError _)).filterMap Except.toOption = pss := by
    simp [List.filterMap_map, Function.comp_def, Except.toOption]
  rw [selected_eq]
  cases hcombine : ClusterError.combine (failures found) with
  | some e =>
    refine ⟨fun h => (by cases h), ?_⟩
    rintro ⟨pss, hfound, -⟩
    rw [(failures_eq_nil_iff found).2 ⟨pss, hfound⟩] at hcombine
    cases hcombine
  | none =>
    obtain ⟨pss, rfl⟩ := (failures_eq_nil_iff found).1 ((combine_eq_none_iff _).1 hcombine)
    simp only [hflat, Option.elim_none, Except.ok.injEq]
    constructor
    · rintro rfl
      exact ⟨pss, rfl, rfl⟩
    · rintro ⟨qss, h, rfl⟩
      rw [(List.map_injective_iff.2 fun _ _ => Except.ok.inj) h]

end Transaction
end ClusterPackages
