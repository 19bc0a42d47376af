import ClusterPackages.Proofs.Upgrade
import ClusterPackages.Proofs.VersionOrder
import ClusterPackages.Proofs.Violations

/-! Bounds on versions. A constraint that compares with a version of all three numbers accepts what stands
on its side of that version in the order of precedence, which is the order that upgrades go by; only a
pre-release needs a bound that is a pre-release of the same numbers. So upgrades to releases never leave
a lower bound behind. -/

namespace ClusterPackages

open Text Version

/-! ## Equal in precedence -/

namespace Identifier

theorem eq_of_compareText {a b : List Char} (h : compareText a b = .eq) : a = b := by
  have hcompares := compareText_compares a b
  rw [h] at hcompares
  exact hcompares

theorem eq_of_compare {a b : Identifier} (h : a.compare b = .eq) : a = b := by
  unfold Identifier.compare at h
  split at h
  · exact eq_of_compareText (Ordering.then_eq_eq.1 h).2
  · cases h
  · cases h
  · exact eq_of_compareText h

theorem eq_of_compareRows {as bs : List Identifier} (h : compareRows as bs = .eq) : as = bs := by
  induction as generalizing bs with
  | nil =>
    cases bs with
    | nil => rfl
    | cons b bs => cases h
  | cons a as ih =>
    cases bs with
    | nil => cases h
    | cons b bs =>
      obtain ⟨hfirst, hrest⟩ := Ordering.then_eq_eq.1 h
      rw [eq_of_compare hfirst, ih hrest]

theorem comparePre_eq_eq_iff {as bs : List Identifier} : comparePre as bs = .eq ↔ as = bs := by
  constructor
  · intro h
    cases as with
    | nil =>
      cases bs with
      | nil => rfl
      | cons b bs => cases h
    | cons a as =>
      cases bs with
      | nil => cases h
      | cons b bs => exact eq_of_compareRows h
  · rintro rfl
    exact comparePre_self as

end Identifier

/-! ## Comparators of three numbers -/

namespace Comparator

/-- The comparator that compares with all of a version. -/
def bound (op : Operator) (w : Version) : Comparator :=
  { op, major := w.major, minor := some w.minor, patch := some w.patch, pre := w.pre }

variable {op : Operator} {v w : Version}

theorem acceptsExact_bound : (bound op w).acceptsExact v = true ↔ v.comparePrecedence w = .eq := by
  simp only [acceptsExact, Bool.and_eq_true, decide_eq_true_eq]
  simp only [bound, Option.all_some, decide_eq_true_eq, comparePrecedence, Ordering.then_eq_eq,
    Nat.compare_eq_eq, Identifier.comparePre_eq_eq_iff]
  constructor
  · rintro ⟨⟨⟨hmajor, hminor⟩, hpatch⟩, hpre⟩
    exact ⟨hmajor, hminor.symm, hpatch.symm, hpre⟩
  · rintro ⟨hmajor, hminor, hpatch, hpre⟩
    exact ⟨⟨⟨hmajor, hminor.symm⟩, hpatch.symm⟩, hpre⟩

/-- Numbers that differ decide, and what follows them decides where they do not. -/
theorem ite_iff_then {a b : ℕ} {here : Prop} [Decidable here] {rest : Bool} {o side : Ordering}
    (hhere : compare a b = side ↔ here) (hrest : rest = true ↔ o = side) :
    (if a ≠ b then decide here else rest) = true ↔ (compare a b).then o = side := by
  by_cases same : a = b
  · rw [if_neg (not_not.2 same), hrest, Nat.compare_eq_eq.2 same]
    rfl
  · have hne : compare a b ≠ .eq := mt Nat.compare_eq_eq.1 same
    rw [if_pos same, decide_eq_true_iff, ← hhere]
    cases hcompare : compare a b with
    | eq => exact absurd hcompare hne
    | lt => rfl
    | gt => rfl

theorem acceptsGreater_bound : (bound op w).acceptsGreater v = true ↔ v.comparePrecedence w = .gt :=
  have hgt {a b : ℕ} : compare a b = .gt ↔ a > b := Nat.compare_eq_gt
  ite_iff_then hgt <| ite_iff_then hgt <| ite_iff_then hgt beq_iff_eq

theorem acceptsLess_bound : (bound op w).acceptsLess v = true ↔ v.comparePrecedence w = .lt :=
  have hlt {a b : ℕ} : compare a b = .lt ↔ a < b := Nat.compare_eq_lt
  ite_iff_then hlt <| ite_iff_then hlt <| ite_iff_then hlt beq_iff_eq

end Comparator

/-- The operators that stand for an order of precedence. -/
inductive Operator.IsOrder : Operator → (Precedence → Precedence → Prop) → Prop
  | exact : IsOrder .exact (· = ·)
  | greater : IsOrder .greater (· > ·)
  | greaterEq : IsOrder .greaterEq (· ≥ ·)
  | less : IsOrder .less (· < ·)
  | lessEq : IsOrder .lessEq (· ≤ ·)

variable {op : Operator} {order : Precedence → Precedence → Prop} {v w : Version}

theorem Operator.IsOrder.ne_wildcard (h : op.IsOrder order) : op ≠ .wildcard := by
  rintro rfl
  cases h

/-- Whatever is above a version that a lower bound lets in is let in too. -/
theorem Operator.IsOrder.of_le (h : op.IsOrder order) (lower : op = .greater ∨ op = .greaterEq)
    {bound p q : Precedence} (hp : order p bound) (hle : p ≤ q) : order q bound := by
  cases h with
  | greater => exact lt_of_lt_of_le hp hle
  | greaterEq => exact le_trans hp hle
  | _ => simp at lower

namespace Comparator

theorem accepts_bound (h : op.IsOrder order) (hv : v.IsProper) (hw : w.IsProper) :
    (bound op w).accepts v = true ↔ order v.precedence w.precedence := by
  have hcompares := comparePrecedence_compares hv hw
  have hexact : (bound op w).acceptsExact v = true ↔ v.precedence = w.precedence :=
    acceptsExact_bound.trans hcompares.eq_eq
  have hgreater : (bound op w).acceptsGreater v = true ↔ w.precedence < v.precedence :=
    acceptsGreater_bound.trans hcompares.eq_gt
  have hless : (bound op w).acceptsLess v = true ↔ v.precedence < w.precedence :=
    acceptsLess_bound.trans hcompares.eq_lt
  cases h with
  | exact => exact hexact
  | greater => exact hgreater
  | less => exact hless
  | greaterEq =>
    refine Bool.or_eq_true_iff.trans ?_
    rw [hexact, hgreater, eq_comm]
    exact le_iff_eq_or_lt.symm
  | lessEq =>
    refine Bool.or_eq_true_iff.trans ?_
    rw [hexact, hless]
    exact le_iff_eq_or_lt.symm

theorem admitsPreRelease_bound :
    (bound op w).admitsPreRelease v = true ↔
      w.pre ≠ [] ∧ v.major = w.major ∧ v.minor = w.minor ∧ v.patch = w.patch := by
  simp only [admitsPreRelease, Bool.and_eq_true, decide_eq_true_eq]
  simp only [bound, Option.some_inj]
  constructor
  · rintro ⟨⟨⟨hmajor, hminor⟩, hpatch⟩, hpre⟩
    exact ⟨hpre, hmajor.symm, hminor.symm, hpatch.symm⟩
  · rintro ⟨hpre, hmajor, hminor, hpatch⟩
    exact ⟨⟨⟨hmajor.symm, hminor.symm⟩, hpatch.symm⟩, hpre⟩

end Comparator

/-! ## Bounds as texts -/

/-- How a version of three numbers is spelled, with a `v` before it or not. -/
inductive Version.IsFullSpelling (cs : List Char) (w : Version) : Prop
  | mk {mark numbers : List Char} (text : cs = mark ++ numbers) (hmark : IsOptionalV mark)
      (hnumbers : IsStrictSpelling numbers w)

/-- A constraint that is an operator before the text of a version, with blanks around both. -/
inductive IsBound (op : Operator) (version constraint : List Char) : Prop
  | mk {before between after : List Char}
      (text : constraint = before ++ (op.symbol ++ (between ++ (version ++ after))))
      (hbefore : ∀ d ∈ before, isBlank d = true) (hbetween : ∀ d ∈ between, isBlank d = true)
      (hafter : ∀ d ∈ after, isBlank d = true)

theorem parse?_of_isFullSpelling {a : String} (h : w.IsFullSpelling a.toList) :
    Version.parse? a = some w := by
  obtain ⟨text, hmark, hnumbers⟩ := h
  rw [← List.append_nil (_ ++ _), List.append_assoc, ← List.nil_append (_ ++ _)] at text
  exact parse?_of_isSpelling text (List.forall_mem_nil _) (List.forall_mem_nil _) hmark hnumbers.isSpelling

theorem IsBound.isLenientSpelling {version constraint : List Char} (h : IsBound op version constraint)
    (hop : op ≠ .wildcard) (full : w.IsFullSpelling version) :
    (Comparator.bound op w).IsLenientSpelling constraint := by
  obtain ⟨rfl, hbefore, hbetween, hafter⟩ := h
  obtain ⟨rfl, hmark, rfl, hmajor, hminor, hpatch, hsuffix⟩ := full
  refine ⟨?_, hbefore, .written hop, hbetween, hmark,
    .mk hmajor (.given hminor) (.given hpatch) (.given _ _) (.full hsuffix), hafter⟩
  simp

/-! ## What a bound lets in -/

theorem validateConstraint_bound_iff {b constraint : String} (h : op.IsOrder order) (hw : w.IsProper)
    (hb : Version.parse? b = some v) (hc : parseConstraint constraint = .ok ⟨[Comparator.bound op w]⟩) :
    validateConstraint b constraint = .ok () ↔
      order v.precedence w.precedence ∧
        (v.pre = [] ∨ w.pre ≠ [] ∧ v.major = w.major ∧ v.minor = w.minor ∧ v.patch = w.patch) := by
  rw [validateConstraint_eq_ok_iff (Version.parse?_eq_some_iff_parse.1 hb) hc,
    Requirement.isMetBy_alone_iff, Comparator.accepts_bound h (Version.isProper_of_parse? hb) hw,
    Comparator.admitsPreRelease_bound]

/-- A version meets a bound if its precedence, by which upgrades go, stands in the order of the operator to
that of the version in the bound, and if it is no pre-release or the bound is a pre-release of the same
numbers. So an upgrade to a release meets each lower bound that was met before. -/
theorem bounds_go_by_precedence {a constraint : String} (h : op.IsOrder order)
    (full : w.IsFullSpelling a.toList) (hbound : IsBound op a.toList constraint.toList) :
    Version.parse? a = some w ∧
    (∀ b v, Version.parse? b = some v →
      (v.comparePrecedence w).Compares v.precedence w.precedence ∧
      (validateConstraint b constraint = .ok () ↔
        order v.precedence w.precedence ∧
          (v.pre = [] ∨ w.pre ≠ [] ∧ v.major = w.major ∧ v.minor = w.minor ∧ v.patch = w.patch))) ∧
    (op = .greater ∨ op = .greaterEq → ∀ b c u, validateConstraint b constraint = .ok () →
      isUpgradable b c = true → Version.parse? c = some u → u.pre = [] →
        validateConstraint c constraint = .ok ()) := by
  have ha : Version.parse? a = some w := parse?_of_isFullSpelling full
  have hw := Version.isProper_of_parse? ha
  have hc := parseConstraint_of_isLenientSpelling (hbound.isLenientSpelling h.ne_wildcard full)
  refine ⟨ha, fun b v hb => ⟨comparePrecedence_compares (Version.isProper_of_parse? hb) hw,
    validateConstraint_bound_iff h hw hb hc⟩, fun lower b c u hvalid hupgrade hu release => ?_⟩
  obtain ⟨v, hb⟩ := Option.isSome_iff_exists.1 (isSome_parse?_of_validateConstraint hvalid)
  have hlet := ((validateConstraint_bound_iff h hw hb hc).1 hvalid).1
  have hle := ((isUpgradable_iff_follows hb hu).1 hupgrade).precedence_le
  exact (validateConstraint_bound_iff h hw hu hc).2 ⟨h.of_le lower hlet hle, .inl release⟩

/-- A bound that is a pre-release lets in later ones of its numbers and all later releases, but no
pre-release of other numbers. -/
theorem bounds_go_by_precedence_candidate :
    let w : Version :=
      { major := 1, minor := 2, patch := 0, pre := ["rc".toList, "9".toList], build := ["5".toList] }
    Operator.greaterEq.IsOrder (· ≥ ·) ∧ w.IsFullSpelling "v1.2.0-rc.9+5".toList ∧
    IsBound .greaterEq "v1.2.0-rc.9+5".toList " >= v1.2.0-rc.9+5".toList ∧
    validateConstraint "1.2.0-rc.10" " >= v1.2.0-rc.9+5" = .ok () ∧
    validateConstraint "2" " >= v1.2.0-rc.9+5" = .ok () ∧
    validateConstraint "2-rc" " >= v1.2.0-rc.9+5" ≠ .ok () := by
  intro w
  let later : Version := { major := 1, minor := 2, patch := 0, pre := ["rc".toList, "10".toList], build := [] }
  let next : Version := { major := 2, minor := 0, patch := 0, pre := ["rc".toList], build := [] }
  have full : w.IsFullSpelling "v1.2.0-rc.9+5".toList :=
    ⟨rfl, .inr (.inl rfl), readStrict_eq_ok_iff.1 (by decide +kernel)⟩
  have htext : " >= v1.2.0-rc.9+5".toList =
      [' '] ++ (Operator.greaterEq.symbol ++ ([' '] ++ ("v1.2.0-rc.9+5".toList ++ []))) := by decide +kernel
  have hbound : IsBound .greaterEq "v1.2.0-rc.9+5".toList " >= v1.2.0-rc.9+5".toList :=
    ⟨htext, List.forall_mem_singleton.2 rfl, List.forall_mem_singleton.2 rfl, List.forall_mem_nil _⟩
  obtain ⟨-, hmeets, hupgrade⟩ := bounds_go_by_precedence .greaterEq full hbound
  have hlater : Version.parse? "1.2.0-rc.10" = some later := by decide +kernel
  have hnext : Version.parse? "2-rc" = some next := by decide +kernel
  obtain ⟨hcompares, hlater⟩ := hmeets "1.2.0-rc.10" later hlater
  obtain ⟨-, hnext⟩ := hmeets "2-rc" next hnext
  have hcmp : later.comparePrecedence w = .gt := by decide +kernel
  rw [hcmp] at hcompares
  have hvalid : validateConstraint "1.2.0-rc.10" " >= v1.2.0-rc.9+5" = .ok () :=
    hlater.2 ⟨le_of_lt hcompares, .inr ⟨by decide, rfl, rfl, rfl⟩⟩
  refine ⟨.greaterEq, full, hbound, hvalid, ?_, fun h => ?_⟩
  · exact hupgrade (.inr rfl) "1.2.0-rc.10" "2" ⟨2, 0, 0, [], []⟩ hvalid (by decide +kernel)
      (by decide +kernel) rfl
  · rcases (hnext.1 h).2 with hrelease | ⟨-, hmajor, -⟩
    · exact absurd hrelease (by decide)
    · exact absurd hmajor (by decide)

end ClusterPackages
