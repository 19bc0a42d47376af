import ClusterPackages.Update
import Mathlib.Data.List.Basic

/-! What ends the wait for an update. `Decides` says which element of a stream decides a wait, and
how; `await_eq_iff` says that the first such element gives the result, whatever comes after it. -/

namespace ClusterPackages

namespace InstalledPackage

theorem isSameObject_iff (p q : InstalledPackage) :
    p.isSameObject q = true ↔ p.kind = q.kind ∧ p.name = q.name ∧ p.namespace? = q.namespace? ∧
      ∀ a b, p.uid? = some a → q.uid? = some b → a = b := by
  cases hp : p.uid? <;> cases hq : q.uid? <;> simp [isSameObject, hp, hq, and_assoc]

theorem isConverged_iff (p : InstalledPackage) :
    p.isConverged = true ↔ ∃ st, p.status = some st ∧ st.version ≠ "" ∧ st.version = p.desiredVersion := by
  cases h : p.status <;> simp [isConverged, h]

theorem readyCondition?_eq_some_iff (p : InstalledPackage) (c : Condition) :
    p.readyCondition? = some c ↔
      ∃ st, p.status = some st ∧ st.conditions.find? (fun d => d.type == "Ready") = some c := by
  cases h : p.status <;> simp [readyCondition?, h, PackageStatus.condition?, readyType]

end InstalledPackage

namespace Update

/-- Whether a state seen on a watch is one of the awaited object, with the awaited version wanted. -/
structure IsAbout (p q : InstalledPackage) : Prop where
  kind : q.kind = p.kind
  name : q.name = p.name
  ns : q.namespace? = p.namespace?
  uid : ∀ a b, q.uid? = some a → p.uid? = some b → a = b
  wanted : q.desiredVersion = p.desiredVersion

/-- An object that shows the version it wants as installed. -/
def IsInstalled (q : InstalledPackage) : Prop :=
  ∃ st, q.status = some st ∧ st.version ≠ "" ∧ st.version = q.desiredVersion

/-- The elements of a stream that end the wait for `p`, each with the result. -/
inductive Decides (p : InstalledPackage) :
    Except ClusterError PackageEvent → Except ClusterError InstalledPackage → Prop
  | error (e : ClusterError) : Decides p (.error e) (.error e)
  | deleted (q : InstalledPackage) (about : IsAbout p q) :
      Decides p (.ok (.deleted q)) (.error (.packageNotFound p.kind p.name p.namespace?))
  | installed (event : PackageEvent) (about : IsAbout p event.object)
      (stays : event.isDeleted = false) (installed : IsInstalled event.object) :
      Decides p (.ok event) (.ok event.object)
  | notReady (event : PackageEvent) (about : IsAbout p event.object)
      (stays : event.isDeleted = false) (waits : ¬ IsInstalled event.object)
      (st : PackageStatus) (status : event.object.status = some st) (c : Condition)
      (ready : st.conditions.find? (fun d => d.type == "Ready") = some c)
      (failed : c.status = "False") :
      Decides p (.ok event) (.error (.notReady p.text c.reason c.message))

/-- An element that does not end the wait for `p`. -/
def IsSkipped (p : InstalledPackage) (x : Except ClusterError PackageEvent) : Prop :=
  ∀ r, ¬ Decides p x r

theorem isAbout_iff (p q : InstalledPackage) :
    IsAbout p q ↔ q.isSameObject p = true ∧ q.desiredVersion = p.desiredVersion := by
  rw [InstalledPackage.isSameObject_iff]
  constructor
  · intro h
    exact ⟨⟨h.kind, h.name, h.ns, h.uid⟩, h.wanted⟩
  · rintro ⟨⟨kind, name, ns, uid⟩, wanted⟩
    exact ⟨kind, name, ns, uid, wanted⟩

theorem isInstalled_iff (q : InstalledPackage) : IsInstalled q ↔ q.isConverged = true :=
  q.isConverged_iff.symm

/-- The verdict on an event is the decision, where there is one. -/
theorem verdict?_eq_some_iff (p : InstalledPackage) (event : PackageEvent)
    (r : Except ClusterError InstalledPackage) :
    verdict? p event = some r ↔ Decides p (.ok event) r := by
  constructor
  · intro h
    simp only [verdict?] at h
    split_ifs at h with hskip hdel hconv
    all_goals have about : IsAbout p event.object := (isAbout_iff _ _).2 (by simpa using hskip)
    · cases event with
      | deleted q => exact Option.some.inj h ▸ .deleted q about
      | added q => cases hdel
      | modified q => cases hdel
    · exact Option.some.inj h ▸
        .installed event about (by simpa using hdel) ((isInstalled_iff _).2 hconv)
    · split at h
      · rename_i c hready
        split_ifs at h with hfalse
        obtain ⟨st, hst, hc⟩ := (InstalledPackage.readyCondition?_eq_some_iff _ _).1 hready
        exact Option.some.inj h ▸ .notReady event about (by simpa using hdel)
          (fun hi => hconv ((isInstalled_iff _).1 hi)) st hst c hc hfalse
      · cases h
  · intro h
    cases h with
    | deleted q about =>
      have ha := (isAbout_iff _ _).1 about
      simp [verdict?, PackageEvent.object, PackageEvent.isDeleted, ha, PackageStore.missing]
    | installed _ about stays installed =>
      have ha := (isAbout_iff _ _).1 about
      simp [verdict?, ha, stays, (isInstalled_iff _).1 installed]
    | notReady _ about stays waits st status c ready failed =>
      have ha := (isAbout_iff _ _).1 about
      have hw : event.object.isConverged = false := by
        simpa using fun hi => waits ((isInstalled_iff _).2 hi)
      have hc := (InstalledPackage.readyCondition?_eq_some_iff _ _).2 ⟨st, status, ready⟩
      simp [verdict?, ha, stays, hw, hc, failed]

theorem Decides.unique {p : InstalledPackage} {x : Except ClusterError PackageEvent}
    {r r' : Except ClusterError InstalledPackage} (h : Decides p x r) (h' : Decides p x r') :
    r = r' := by
  cases x with
  | error e =>
    cases h
    cases h'
    rfl
  | ok event =>
    rw [← verdict?_eq_some_iff] at h h'
    exact Option.some.inj (h.symm.trans h')

theorem await_cons_of_decides {p : InstalledPackage} {x : Except ClusterError PackageEvent}
    {r : Except ClusterError InstalledPackage} (h : Decides p x r)
    (rest : List (Except ClusterError PackageEvent)) : await p (x :: rest) = r := by
  cases x with
  | error e =>
    cases h
    rfl
  | ok event =>
    rw [await, (verdict?_eq_some_iff p event r).2 h]

theorem await_cons_of_isSkipped {p : InstalledPackage} {x : Except ClusterError PackageEvent}
    (h : IsSkipped p x) (rest : List (Except ClusterError PackageEvent)) :
    await p (x :: rest) = await p rest := by
  cases x with
  | error e => exact absurd (.error e) (h _)
  | ok event =>
    cases hv : verdict? p event with
    | some r => exact absurd ((verdict?_eq_some_iff p event r).1 hv) (h r)
    | none => rw [await, hv]

/-- The first element that decides the wait gives its result; a stream without one was closed. -/
theorem await_eq_iff (p : InstalledPackage) (stream : List (Except ClusterError PackageEvent))
    (r : Except ClusterError InstalledPackage) :
    await p stream = r ↔
      (∃ skipped x rest, stream = skipped ++ x :: rest ∧ (∀ y ∈ skipped, IsSkipped p y) ∧
        Decides p x r) ∨
      (∀ y ∈ stream, IsSkipped p y) ∧ r = .error (.watchClosed p.text) := by
  induction stream with
  | nil =>
    constructor
    · rintro rfl
      exact Or.inr ⟨fun _ h => absurd h (List.not_mem_nil), rfl⟩
    · rintro (⟨skipped, x, rest, h, -⟩ | ⟨-, rfl⟩)
      · exact absurd h.symm (List.append_ne_nil_of_right_ne_nil _ (List.cons_ne_nil _ _))
      · rfl
  | cons x stream ih =>
    by_cases hx : IsSkipped p x
    · rw [await_cons_of_isSkipped hx, ih]
      constructor
      · rintro (⟨skipped, y, rest, rfl, hs, hd⟩ | ⟨hs, rfl⟩)
        · exact Or.inl ⟨x :: skipped, y, rest, rfl, List.forall_mem_cons.2 ⟨hx, hs⟩, hd⟩
        · exact Or.inr ⟨List.forall_mem_cons.2 ⟨hx, hs⟩, rfl⟩
      · rintro (⟨skipped, y, rest, he, hs, hd⟩ | ⟨hs, rfl⟩)
        · cases skipped with
          | nil =>
            obtain ⟨rfl, -⟩ := List.cons.inj he
            exact absurd hd (hx r)
          | cons z skipped =>
            obtain ⟨-, rfl⟩ := List.cons.inj he
            exact Or.inl ⟨skipped, y, rest, rfl, (List.forall_mem_cons.1 hs).2, hd⟩
        · exact Or.inr ⟨(List.forall_mem_cons.1 hs).2, rfl⟩
    · obtain ⟨r', hd⟩ : ∃ r', Decides p x r' := by
        simpa [IsSkipped] using hx
      rw [await_cons_of_decides hd]
      constructor
      · rintro rfl
        exact Or.inl ⟨[], x, stream, rfl, fun _ h => absurd h (List.not_mem_nil), hd⟩
      · rintro (⟨skipped, y, rest, he, hs, hd'⟩ | ⟨hs, -⟩)
        · cases skipped with
          | nil =>
            obtain ⟨rfl, -⟩ := List.cons.inj he
            exact hd.unique hd'
          | cons z skipped =>
            obtain ⟨rfl, -⟩ := List.cons.inj he
            exact absurd hd ((List.forall_mem_cons.1 hs).1 r')
        · exact absurd hd ((List.forall_mem_cons.1 hs).1 r')

end Update
end ClusterPackages
