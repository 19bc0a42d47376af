import ClusterPackages.Proofs.Placement
import Mathlib.Data.List.Induction

/-! Versions written to a store, one after the other. A write changes the object at one place and
nothing else, so after a row of writes each object wants the version last written to its place
(`stored?_writes`), and what the store refuses is the same as before (`refusal?_writes`). -/

namespace ClusterPackages.PackageStore

/-! ## The written object -/

theorem desiredVersion_moved (c : Bool) (v : String) (o : InstalledPackage) :
    (moved c v o).desiredVersion = v := by
  cases c <;> rfl

theorem moved_identity (c : Bool) (v : String) (o : InstalledPackage) :
    (moved c v o).kind = o.kind ∧ (moved c v o).name = o.name ∧
      (moved c v o).namespace? = o.namespace? ∧ (moved c v o).uid? = o.uid? := by
  cases c <;> exact ⟨rfl, rfl, rfl, rfl⟩

theorem isSamePlace_moved (c : Bool) (v : String) (o : InstalledPackage) :
    IsSamePlace (moved c v o) o := by
  cases c <;> exact ⟨rfl, rfl, fun _ => rfl⟩

theorem text_moved (c : Bool) (v : String) (o : InstalledPackage) : (moved c v o).text = o.text := by
  cases c <;> rfl

theorem moved_moved (c : Bool) (v w : String) (o : InstalledPackage) :
    moved c v (moved c w o) = moved c v o := by
  cases c <;> rfl

/-! ## One write -/

/-- The failure that a store meets an update with, if it does not take it. -/
def refusal? (s : PackageStore) (u : UpdateItem) : Option ClusterError :=
  if s.refusing.contains u.package.name then some (conflict u.package)
  else if (s.stored? u.package).isNone then some (missing u.package)
  else none

/-- Writes the version of an update to the object at its place, if there is one. -/
def write (s : PackageStore) (u : UpdateItem) : PackageStore :=
  match s.stored? u.package with
  | some o => s.put (moved s.converges u.version o)
  | none => s

theorem refusal?_eq_none_iff (s : PackageStore) (u : UpdateItem) :
    s.refusal? u = none ↔ u.package.name ∉ s.refusing ∧ ∃ o, s.stored? u.package = some o := by
  unfold refusal?
  by_cases hr : u.package.name ∈ s.refusing
  · simp [hr]
  · cases s.stored? u.package <;> simp [hr]

theorem updateVersion_of_refused {s : PackageStore} {u : UpdateItem} {e : ClusterError}
    (h : s.refusal? u = some e) : s.updateVersion u.package u.version = (.error e, s) := by
  unfold refusal? at h
  unfold updateVersion
  split_ifs at h ⊢ with hr hn
  · rw [Option.some.inj h]
  · rw [Option.isNone_iff_eq_none.1 hn, Option.some.inj h]

theorem updateVersion_of_taken {s : PackageStore} {u : UpdateItem} {o : InstalledPackage}
    (h : s.refusal? u = none) (ho : s.stored? u.package = some o) :
    s.updateVersion u.package u.version = (.ok (moved s.converges u.version o), s.write u) := by
  have hr : s.refusing.contains u.package.name = false := by
    simpa using ((s.refusal?_eq_none_iff u).1 h).1
  simp only [updateVersion, hr, ho, write, Bool.false_eq_true, if_false]

theorem put_refusing (s : PackageStore) (p : InstalledPackage) : (s.put p).refusing = s.refusing := by
  unfold put
  split <;> rfl

theorem put_converges (s : PackageStore) (p : InstalledPackage) : (s.put p).converges = s.converges := by
  unfold put
  split <;> rfl

theorem put_scripts (s : PackageStore) (p : InstalledPackage) : (s.put p).scripts = s.scripts := by
  unfold put
  split <;> rfl

theorem write_refusing (s : PackageStore) (u : UpdateItem) : (s.write u).refusing = s.refusing := by
  unfold write
  split
  · exact put_refusing _ _
  · rfl

theorem write_converges (s : PackageStore) (u : UpdateItem) :
    (s.write u).converges = s.converges := by
  unfold write
  split
  · exact put_converges _ _
  · rfl

theorem write_scripts (s : PackageStore) (u : UpdateItem) : (s.write u).scripts = s.scripts := by
  unfold write
  split
  · exact put_scripts _ _
  · rfl

theorem WellKeyed.write {s : PackageStore} (h : WellKeyed s) (u : UpdateItem) :
    WellKeyed (s.write u) := by
  unfold PackageStore.write
  split
  · exact h.put _
  · exact h

/-- A write changes the object at its place, and no other. -/
theorem stored?_write {s : PackageStore} (h : WellKeyed s) (u : UpdateItem) (q : InstalledPackage) :
    (s.write u).stored? q =
      if IsSamePlace u.package q then (s.stored? q).map (moved s.converges u.version)
      else s.stored? q := by
  by_cases hq : IsSamePlace u.package q
  · rw [if_pos hq, ← stored?_congr s hq, stored?_congr _ hq.symm]
    unfold write
    cases ho : s.stored? u.package with
    | none => exact ho
    | some o =>
      have hsame := (isSamePlace_moved s.converges u.version o).trans (h.isSamePlace ho)
      simp only [stored?_put, if_pos hsame, Option.map_some]
  · rw [if_neg hq]
    unfold write
    cases ho : s.stored? u.package with
    | none => rfl
    | some o =>
      have hother : ¬ IsSamePlace (moved s.converges u.version o) q := fun hm =>
        hq (((isSamePlace_moved _ _ _).trans (h.isSamePlace ho)).symm.trans hm)
      simp only [stored?_put, if_neg hother]

/-! ## A row of writes -/

def writes (s : PackageStore) (us : List UpdateItem) : PackageStore := us.foldl write s

/-- The last of a row of updates that is about the place of a package. -/
def lastAt (us : List UpdateItem) (q : InstalledPackage) : Option UpdateItem :=
  (us.filter fun u => decide (IsSamePlace u.package q)).getLast?

theorem writes_append (s : PackageStore) (us vs : List UpdateItem) :
    s.writes (us ++ vs) = (s.writes us).writes vs := List.foldl_append

theorem writes_snoc (s : PackageStore) (us : List UpdateItem) (u : UpdateItem) :
    s.writes (us ++ [u]) = (s.writes us).write u := s.writes_append us [u]

theorem lastAt_snoc (us : List UpdateItem) (u : UpdateItem) (q : InstalledPackage) :
    lastAt (us ++ [u]) q = if IsSamePlace u.package q then some u else lastAt us q := by
  unfold lastAt
  rw [List.filter_append]
  split_ifs with h <;> simp [h]

theorem mem_of_lastAt {us : List UpdateItem} {q : InstalledPackage} {u : UpdateItem}
    (h : lastAt us q = some u) : u ∈ us ∧ IsSamePlace u.package q := by
  have hu := List.mem_filter.1 (List.mem_of_getLast? h)
  exact ⟨hu.1, of_decide_eq_true hu.2⟩

theorem lastAt_eq_none_iff (us : List UpdateItem) (q : InstalledPackage) :
    lastAt us q = none ↔ ∀ u ∈ us, ¬ IsSamePlace u.package q := by
  simp [lastAt]

theorem WellKeyed.writes {s : PackageStore} (h : WellKeyed s) (us : List UpdateItem) :
    WellKeyed (s.writes us) := by
  induction us using List.reverseRecOn with
  | nil => exact h
  | append_singleton us u ih =>
    rw [writes_snoc]
    exact ih.write u

theorem writes_refusing (s : PackageStore) (us : List UpdateItem) :
    (s.writes us).refusing = s.refusing := by
  induction us using List.reverseRecOn with
  | nil => rfl
  | append_singleton us u ih => rw [writes_snoc, write_refusing, ih]

theorem writes_converges (s : PackageStore) (us : List UpdateItem) :
    (s.writes us).converges = s.converges := by
  induction us using List.reverseRecOn with
  | nil => rfl
  | append_singleton us u ih => rw [writes_snoc, write_converges, ih]

/-- After a row of writes each object wants what was last written to its place. -/
theorem stored?_writes {s : PackageStore} (h : WellKeyed s) (us : List UpdateItem)
    (q : InstalledPackage) :
    (s.writes us).stored? q =
      match lastAt us q with
      | some u => (s.stored? q).map (moved s.converges u.version)
      | none => s.stored? q := by
  induction us using List.reverseRecOn with
  | nil => rfl
  | append_singleton us u ih =>
    rw [writes_snoc, stored?_write (h.writes us), lastAt_snoc, writes_converges, ih]
    split_ifs
    · cases lastAt us q with
      | none => rfl
      | some w =>
        -- the version written before is gone
        simp only [Option.map_map]
        congr 1
        funext o
        exact moved_moved _ _ _ _
    · rfl

theorem isNone_stored?_writes {s : PackageStore} (h : WellKeyed s) (us : List UpdateItem)
    (q : InstalledPackage) : ((s.writes us).stored? q).isNone = (s.stored? q).isNone := by
  rw [stored?_writes h]
  cases lastAt us q <;> simp

/-- What a store refuses does not depend on what was written to it. -/
theorem refusal?_writes {s : PackageStore} (h : WellKeyed s) (us : List UpdateItem)
    (u : UpdateItem) : (s.writes us).refusal? u = s.refusal? u := by
  unfold refusal?
  rw [writes_refusing, isNone_stored?_writes h]

/-- Writing again to a place replaces what was written there before. -/
theorem map_moved_stored?_writes {s : PackageStore} (h : WellKeyed s) (us : List UpdateItem)
    (v : String) (q : InstalledPackage) :
    ((s.writes us).stored? q).map (moved s.converges v) =
      (s.stored? q).map (moved s.converges v) := by
  rw [stored?_writes h]
  cases lastAt us q with
  | none => rfl
  | some u =>
    cases s.stored? q with
    | none => rfl
    | some o => exact congrArg some (moved_moved _ _ _ _)

end ClusterPackages.PackageStore
