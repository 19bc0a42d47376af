import ClusterPackages.Proofs.ConstraintText

/-! What a validation against a constraint reports. A pre-release meets a requirement of many comparators
if it is in range of all and one of them admits it, while alone each would have to admit it. So a
requirement may be met that some comparators alone reject, but none that has comparators is violated
unless one of them alone rejects. -/

namespace ClusterPackages

variable {version constraint : String} {v : Version} {r : Requirement}

/-! ## Validation -/

theorem Version.parse?_eq_some_iff_parse {text : String} :
    Version.parse? text = some v ↔ Version.parse text = .ok v := by
  unfold Version.parse?
  cases Version.parse text with
  | ok w => exact ⟨fun h => congrArg _ (Option.some.inj h), fun h => congrArg _ (Except.ok.inj h)⟩
  | error fault => exact ⟨fun h => (by cases h), fun h => (by cases h)⟩

theorem validateConstraint_of_invalidVersion {fault : VersionFault}
    (h : Version.parse version = .error fault) :
    validateConstraint version constraint = .error (.invalidVersion version fault) := by
  have hversion : parseVersion version = .error (.invalidVersion version fault) := by
    rw [parseVersion, h]
    rfl
  unfold validateConstraint
  rw [hversion]
  rfl

theorem validateConstraint_of_invalidConstraint {e : ConstraintError}
    (hv : Version.parse version = .ok v) (he : parseConstraint constraint = .error e) :
    validateConstraint version constraint = .error e := by
  have hversion : parseVersion version = .ok v := Run.mapError_eq_ok_iff.2 hv
  unfold validateConstraint
  rw [hversion, he]
  rfl

theorem validateConstraint_of_parse (hv : Version.parse version = .ok v)
    (hr : parseConstraint constraint = .ok r) :
    validateConstraint version constraint =
      if r.isMetBy v then .ok () else .error (.violation version constraint (r.unmet v)) := by
  have hversion : parseVersion version = .ok v := Run.mapError_eq_ok_iff.2 hv
  unfold validateConstraint
  rw [hversion, hr]
  rfl

theorem validateConstraint_eq_ok_iff (hv : Version.parse version = .ok v)
    (hr : parseConstraint constraint = .ok r) :
    validateConstraint version constraint = .ok () ↔ r.isMetBy v = true := by
  rw [validateConstraint_of_parse hv hr]
  split_ifs with hmet
  · simp [hmet]
  · simp [hmet]

theorem isSome_parse?_of_validateConstraint {text constraint : String}
    (h : validateConstraint text constraint = .ok ()) : (Version.parse? text).isSome := by
  obtain ⟨v, hv, -⟩ := Run.except_bind_eq_ok_iff.1 h
  exact Option.isSome_iff_exists.2 ⟨v, Version.parse?_eq_some_iff_parse.2 (Run.mapError_eq_ok_iff.1 hv)⟩

/-! ## Comparators alone -/

namespace Requirement

theorem isMetBy_iff :
    r.isMetBy v = true ↔ (∀ c ∈ r.comparators, c.accepts v = true) ∧
      (v.pre = [] ∨ ∃ c ∈ r.comparators, c.admitsPreRelease v = true) := by
  simp only [isMetBy, Bool.and_eq_true, Bool.or_eq_true, List.all_eq_true, List.any_eq_true,
    decide_eq_true_eq]

theorem isMetBy_alone_iff {c : Comparator} :
    isMetBy ⟨[c]⟩ v = true ↔
      c.accepts v = true ∧ (v.pre = [] ∨ c.admitsPreRelease v = true) := by
  simp [isMetBy_iff]

/-- Comparators that all accept alone accept together: one that admits a pre-release is enough. -/
theorem isMetBy_of_forall_alone (written : r.comparators ≠ [])
    (h : ∀ c ∈ r.comparators, isMetBy ⟨[c]⟩ v = true) : r.isMetBy v = true := by
  obtain ⟨c, hc⟩ := List.exists_mem_of_ne_nil _ written
  refine isMetBy_iff.2 ⟨fun d hd => (isMetBy_alone_iff.1 (h d hd)).1, ?_⟩
  exact (isMetBy_alone_iff.1 (h c hc)).2.imp_right fun hadmits => ⟨c, hc, hadmits⟩

/-- A requirement without comparators is met by every release and by no pre-release. -/
theorem isMetBy_iff_of_nil (unwritten : r.comparators = []) : r.isMetBy v = true ↔ v.pre = [] := by
  simp [isMetBy_iff, unwritten]

/-- The comparators that reject a version, each taken alone as a requirement. -/
def rejecting (r : Requirement) (v : Version) : List Comparator :=
  r.comparators.filter fun c => !isMetBy ⟨[c]⟩ v

/-- What a violation reports: the comparators that reject alone, or the requirement itself if it has none. -/
inductive Reports (r : Requirement) (v : Version) : List String → Prop
  | comparators (written : r.comparators ≠ []) (rejects : r.rejecting v ≠ []) :
      Reports r v ((r.rejecting v).map Comparator.text)
  | wildcard (unwritten : r.comparators = []) (preRelease : v.pre ≠ []) : Reports r v [r.text]

theorem Reports.ne_nil {unmet : List String} (h : r.Reports v unmet) : unmet ≠ [] := by
  cases h with
  | comparators written rejects => exact mt List.map_eq_nil_iff.1 rejects
  | wildcard unwritten preRelease => exact List.cons_ne_nil _ _

theorem rejecting_ne_nil (written : r.comparators ≠ []) (hmet : ¬ r.isMetBy v = true) :
    r.rejecting v ≠ [] := by
  intro hnone
  refine hmet (isMetBy_of_forall_alone written fun c hc => ?_)
  simpa using List.filter_eq_nil_iff.1 hnone c hc

theorem unmet_of_nil (unwritten : r.comparators = []) : r.unmet v = [r.text] := by
  unfold unmet
  rw [unwritten, List.filter_nil]

theorem unmet_of_rejecting (rejects : r.rejecting v ≠ []) :
    r.unmet v = (r.rejecting v).map Comparator.text := by
  unfold unmet
  split
  · rename_i hnone
    exact absurd hnone rejects
  · rfl

theorem reports_unmet (hmet : ¬ r.isMetBy v = true) : r.Reports v (r.unmet v) := by
  by_cases written : r.comparators = []
  · rw [unmet_of_nil written]
    exact .wildcard written (mt (isMetBy_iff_of_nil written).2 hmet)
  · have rejects := rejecting_ne_nil written hmet
    rw [unmet_of_rejecting rejects]
    exact .comparators written rejects

end Requirement

/-! ## What is reported -/

/-- A version that is none is reported first, then a constraint that is none. If both are read, what a
violation reports is one text for each comparator that alone rejects the version, in the order of the
constraint's parts, and at least one; only a wildcard that rejects a pre-release is reported as such.
To be taken alone is to be validated against, and to be what a part of the constraint says. -/
theorem violations_name_rejecting_comparators (version constraint : String) :
    (∀ fault, Version.parse version = .error fault →
      validateConstraint version constraint = .error (.invalidVersion version fault)) ∧
    (∀ v e, Version.parse version = .ok v → parseConstraint constraint = .error e →
      validateConstraint version constraint = .error e) ∧
    ∀ v r, Version.parse version = .ok v → parseConstraint constraint = .ok r →
      (∀ e, validateConstraint version constraint = .error e →
        ∃ unmet, e = .violation version constraint unmet ∧ unmet ≠ [] ∧ r.Reports v unmet) ∧
      (r.comparators ≠ [] → (∀ c ∈ r.comparators, Requirement.isMetBy ⟨[c]⟩ v = true) →
        validateConstraint version constraint = .ok ()) ∧
      (r.comparators = [] → v.pre ≠ [] →
        validateConstraint version constraint = .error (.violation version constraint [r.text])) ∧
      (r.comparators ≠ [] →
        List.Forall₂ (fun part c => parseConstraint (String.ofList part) = .ok ⟨[c]⟩)
          (Text.splitOn ',' constraint.toList) r.comparators) ∧
      ∀ c ∈ r.comparators,
        (validateConstraint version c.text = .ok () ↔ Requirement.isMetBy ⟨[c]⟩ v = true) := by
  refine ⟨fun fault => validateConstraint_of_invalidVersion,
    fun v e => validateConstraint_of_invalidConstraint, fun v r hv hr =>
    ⟨fun e he => ?_, fun written h => ?_, fun unwritten preRelease => ?_,
      forall₂_of_parseConstraint hr, fun c hc => ?_⟩⟩
  · rw [validateConstraint_of_parse hv hr] at he
    split_ifs at he with hmet
    obtain rfl := Except.error.inj he
    have hreports := Requirement.reports_unmet hmet
    exact ⟨_, rfl, hreports.ne_nil, hreports⟩
  · exact (validateConstraint_eq_ok_iff hv hr).2 (Requirement.isMetBy_of_forall_alone written h)
  · have hmet : ¬ r.isMetBy v = true := mt (Requirement.isMetBy_iff_of_nil unwritten).1 preRelease
    rw [validateConstraint_of_parse hv hr, if_neg hmet, Requirement.unmet_of_nil unwritten]
  · exact validateConstraint_eq_ok_iff hv (parseConstraint_text (isWellFormed_of_parseConstraint hr c hc))

/-- The second comparator alone rejects a pre-release that both together accept, and is not alone to blame
for one that they reject. -/
example :
    validateConstraint "1.0.0-b" ">=1.0.0-a, <2" = .ok () ∧
    validateConstraint "1.0.0-b" ">=1.0.0-c, v2" =
      .error (.violation "1.0.0-b" ">=1.0.0-c, v2" [">=1.0.0-c", "^2"]) ∧
    validateConstraint "1.0.0-b" "*" = .error (.violation "1.0.0-b" "*" ["*"]) := by
  decide +kernel

end ClusterPackages
