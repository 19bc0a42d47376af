import ClusterPackages.Proofs.Apply

/-! Deletions of an object that is waited for. An event about it counts only if it shows the version
that is waited for, and a deletion is no exception: the deletion of an object that somebody else has
moved on to another version passes unseen. So such deletions can be left out of a stream, and once
the object is gone the wait goes on until the watch is closed. -/

namespace ClusterPackages

namespace Update

variable {p q : InstalledPackage}

/-! ## What is skipped -/

/-- Skipped elements before others do not show. -/
theorem await_append_of_isSkipped {before : List (Except ClusterError PackageEvent)}
    (skipped : ∀ x ∈ before, IsSkipped p x) (rest : List (Except ClusterError PackageEvent)) :
    await p (before ++ rest) = await p rest := by
  induction before with
  | nil => rfl
  | cons x before ih =>
    obtain ⟨hx, hbefore⟩ := List.forall_mem_cons.1 skipped
    rw [List.cons_append, await_cons_of_isSkipped hx, ih hbefore]

/-- Skipped elements can be left out wherever they stand. -/
theorem await_filter {keep : Except ClusterError PackageEvent → Bool}
    (skipped : ∀ x, keep x = false → IsSkipped p x)
    (stream : List (Except ClusterError PackageEvent)) :
    await p (stream.filter keep) = await p stream := by
  induction stream with
  | nil => rfl
  | cons x stream ih =>
    by_cases hx : IsSkipped p x
    · rw [await_cons_of_isSkipped hx]
      cases hkeep : keep x with
      | false => rw [List.filter_cons_of_neg (by simp [hkeep]), ih]
      | true => rw [List.filter_cons_of_pos hkeep, await_cons_of_isSkipped hx, ih]
    · have hkeep : keep x = true := by simpa using mt (skipped x) hx
      obtain ⟨r, hr⟩ : ∃ r, Decides p x r := by simpa [IsSkipped] using hx
      rw [List.filter_cons_of_pos hkeep, await_cons_of_decides hr, await_cons_of_decides hr]

theorem isSkipped_of_not_isAbout {event : PackageEvent} (h : ¬ IsAbout p event.object) :
    IsSkipped p (.ok event) := by
  intro r hr
  cases hr with
  | deleted q about => exact h about
  | installed _ about => exact h about
  | notReady _ about => exact h about

theorem isSkipped_of_other_object {event : PackageEvent}
    (h : event.object.isSameObject p = false) : IsSkipped p (.ok event) := by
  refine isSkipped_of_not_isAbout fun about => ?_
  rw [((isAbout_iff _ _).1 about).1] at h
  cases h

theorem isSkipped_of_otherwise_wanted (event : PackageEvent)
    (h : event.object.desiredVersion ≠ p.desiredVersion) : IsSkipped p (.ok event) :=
  isSkipped_of_not_isAbout fun about => h about.wanted

/-! ## Deletions -/

/-- A deletion of the awaited object, of which another version was wanted by then. -/
def isOvertaken (p : InstalledPackage) : Except ClusterError PackageEvent → Bool
  | .ok (.deleted q) => q.isSameObject p && q.desiredVersion != p.desiredVersion
  | .ok (.added _) | .ok (.modified _) | .error _ => false

theorem isSkipped_of_isOvertaken {x : Except ClusterError PackageEvent} (h : isOvertaken p x = true) :
    IsSkipped p x := by
  cases x with
  | error e => cases h
  | ok event =>
    cases event with
    | added | modified => cases h
    | deleted q =>
      obtain ⟨-, hwanted⟩ := Bool.and_eq_true_iff.1 h
      exact isSkipped_of_otherwise_wanted (.deleted q) (bne_iff_ne.1 hwanted)

/-- A deletion of the awaited object ends the wait exactly if the object still wanted the version
that is waited for. Otherwise the wait goes on as if nothing had been deleted, to the end of the watch
if nothing more is told of the object. -/
theorem deletion_ends_wait_if_wanted {before : List (Except ClusterError PackageEvent)}
    (skipped : ∀ x ∈ before, IsSkipped p x) (same : q.isSameObject p = true)
    (rest : List (Except ClusterError PackageEvent)) :
    (q.desiredVersion = p.desiredVersion →
      await p (before ++ .ok (.deleted q) :: rest) =
        .error (.packageNotFound p.kind p.name p.namespace?)) ∧
    (q.desiredVersion ≠ p.desiredVersion →
      await p (before ++ .ok (.deleted q) :: rest) = await p rest ∧
      ((∀ x ∈ rest, ∃ event, x = .ok event ∧ event.object.isSameObject p = false) →
        await p (before ++ .ok (.deleted q) :: rest) = .error (.watchClosed p.text))) ∧
    ∀ stream, await p (stream.filter fun x => !isOvertaken p x) = await p stream := by
  rw [await_append_of_isSkipped skipped]
  refine ⟨fun wanted => ?_, fun other => ?_, await_filter fun x hx => ?_⟩
  · exact await_cons_of_decides (.deleted q ((isAbout_iff p q).2 ⟨same, wanted⟩)) rest
  · have hpasses : await p (.ok (.deleted q) :: rest) = await p rest :=
      await_cons_of_isSkipped (isSkipped_of_otherwise_wanted (.deleted q) other) rest
    refine ⟨hpasses, fun gone => ?_⟩
    have hskipped : ∀ x ∈ rest, IsSkipped p x := by
      intro x hx
      obtain ⟨event, rfl, hother⟩ := gone x hx
      exact isSkipped_of_other_object hother
    rw [hpasses, ← List.append_nil rest, await_append_of_isSkipped hskipped]
    rfl
  · exact isSkipped_of_isOvertaken (by simpa using hx)

/-- After a state from before the update a deletion with the version wanted ends the wait. Had
another version been wanted, the event after it would have. -/
theorem deletion_ends_wait_if_wanted_after_stale :
    let a : InstalledPackage :=
      { kind := .package, metadata := { name := "a", «namespace» := "n", uid := "1" }
        spec := { packageInfo := { name := "a", version := "1" } } }
    let p := a.setDesiredVersion "2"
    let installed := PackageStore.moved true "2" a
    await p [.ok (.modified a), .ok (.deleted p), .ok (.added installed)] =
        .error (.packageNotFound .package "a" (some "n")) ∧
      await p [.ok (.modified a), .ok (.deleted a), .ok (.added installed)] = .ok installed := by
  intro a p installed
  have hstale : ∀ x ∈ [Except.ok (PackageEvent.modified a)], IsSkipped p x :=
    List.forall_mem_singleton.2 (isSkipped_of_otherwise_wanted (.modified a) (by decide))
  obtain ⟨hends, -⟩ := deletion_ends_wait_if_wanted (q := p) hstale (by decide)
    [.ok (.added installed)]
  obtain ⟨-, hpasses, -⟩ := deletion_ends_wait_if_wanted (q := a) hstale (by decide)
    [.ok (.added installed)]
  exact ⟨hends rfl, (hpasses (by decide)).1.trans rfl⟩

/-- Somebody wants another version of the object and then deletes it: the wait does not end, and the
update is reported as one whose watch was closed. -/
theorem overtaken_deletion_is_missed :
    let a : InstalledPackage :=
      { kind := .clusterPackage, metadata := { name := "a", uid := "1" }
        spec := { packageInfo := { name := "a", version := "1" } } }
    let p := a.setDesiredVersion "2"
    let gone := a.setDesiredVersion "3"
    let s : State := { store := (PackageStore.ofList [a]).scriptWatch a [.deleted gone] }
    gone.isSameObject p = true ∧
    await p [.ok (.deleted gone)] ≠ .error (.packageNotFound p.kind p.name p.namespace?) ∧
    ((apply true { items := [⟨a, "2"⟩] }).run s).1 =
      .error (.updateFailed "ClusterPackage/a" (.watchClosed "ClusterPackage/a")) := by
  intro a p gone s
  have hclosed : await p [.ok (.deleted gone)] = .error (.watchClosed p.text) := rfl
  refine ⟨by decide, fun h => ?_, rfl⟩
  rw [hclosed] at h
  cases h

end Update
end ClusterPackages
