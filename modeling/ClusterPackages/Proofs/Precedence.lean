import ClusterPackages.Proofs.Run
import ClusterPackages.Version.Upgrade
import Mathlib.Data.Char
import Mathlib.Data.List.Lex
import Mathlib.Data.Prod.Lex
import Mathlib.Data.Sum.Order
import Mathlib.Order.Compare
import Mathlib.Order.WithBot
import Mathlib.Tactic.Ring

/-! Precedence is the order of a key. `Version.precedence` sends a version to a linear order in which
numbers stand for their values and a release stands on top, and what the library compares character
by character is the order of these keys. -/

namespace ClusterPackages

/-! ## Decimal digits -/

namespace Text

theorem foldl_decimal (n : ℕ) (cs : List Char) :
    cs.foldl (fun n c => 10 * n + digitValue c) n = n * 10 ^ cs.length + decimal cs := by
  induction cs generalizing n with
  | nil => simp [decimal]
  | cons c cs ih =>
    unfold decimal
    rw [List.foldl_cons, List.foldl_cons, ih, ih, List.length_cons]
    ring

theorem decimal_cons (c : Char) (cs : List Char) :
    decimal (c :: cs) = digitValue c * 10 ^ cs.length + decimal cs := by
  unfold decimal
  rw [List.foldl_cons, foldl_decimal]
  simp [decimal]

theorem isDigit_iff (c : Char) : isDigit c = true ↔ 48 ≤ c.toNat ∧ c.toNat ≤ 57 := by
  simp only [isDigit, Bool.and_eq_true, decide_eq_true_eq]
  exact Iff.rfl

theorem toNat_of_isDigit {c : Char} (h : isDigit c = true) :
    c.toNat = 48 + digitValue c ∧ digitValue c < 10 := by
  have hc := (isDigit_iff c).1 h
  have hzero : '0'.toNat = 48 := rfl
  unfold digitValue
  omega

theorem decimal_lt {cs : List Char} (h : ∀ c ∈ cs, isDigit c = true) :
    decimal cs < 10 ^ cs.length := by
  induction cs with
  | nil => simp [decimal]
  | cons c cs ih =>
    obtain ⟨hc, hcs⟩ := List.forall_mem_cons.1 h
    have hdigit : digitValue c + 1 ≤ 10 := (toNat_of_isDigit hc).2
    rw [decimal_cons, List.length_cons, pow_succ]
    calc digitValue c * 10 ^ cs.length + decimal cs
        < digitValue c * 10 ^ cs.length + 10 ^ cs.length := Nat.add_lt_add_left (ih hcs) _
      _ = (digitValue c + 1) * 10 ^ cs.length := by ring
      _ ≤ 10 * 10 ^ cs.length := Nat.mul_le_mul_right _ hdigit
      _ = 10 ^ cs.length * 10 := Nat.mul_comm _ _

/-- A number without a leading zero has the size that its length says. -/
theorem le_decimal_cons {c : Char} {cs : List Char} (hdigit : isDigit c = true) (hzero : c ≠ '0') :
    10 ^ cs.length ≤ decimal (c :: cs) := by
  have hpos : 1 ≤ digitValue c := by
    by_contra hlt
    have hc := toNat_of_isDigit hdigit
    refine hzero (Char.toNat_inj.1 ?_)
    have : '0'.toNat = 48 := rfl
    omega
  rw [decimal_cons]
  exact (Nat.le_mul_of_pos_left _ hpos).trans (Nat.le_add_right _ _)

end Text

/-! ## Comparisons and orders -/

theorem compares_nat (a b : ℕ) : (compare a b).Compares a b := by
  rcases lt_trichotomy a b with h | h | h
  · rw [Nat.compare_eq_lt.2 h]
    exact h
  · rw [Nat.compare_eq_eq.2 h]
    exact h
  · rw [Nat.compare_eq_gt.2 h]
    exact h

/-- What is compared first decides, unless it is the same on both sides. -/
theorem compares_then {α β : Type} [LT α] [LT β] {o p : Ordering} {a a' : α} {b b' : β}
    (ho : o.Compares a a') (hp : p.Compares b b') :
    (o.then p).Compares (toLex (a, b)) (toLex (a', b')) := by
  cases o with
  | lt => exact Prod.Lex.toLex_lt_toLex.2 (.inl ho)
  | gt => exact Prod.Lex.toLex_lt_toLex.2 (.inl ho)
  | eq =>
    obtain rfl : a = a' := ho
    cases p with
    | lt => exact Prod.Lex.toLex_lt_toLex.2 (.inr ⟨rfl, hp⟩)
    | gt => exact Prod.Lex.toLex_lt_toLex.2 (.inr ⟨rfl, hp⟩)
    | eq => exact congrArg (fun b => toLex (a, b)) hp

theorem compares_map {α β : Type} [LT α] [LT β] {f : α → β} (hf : ∀ {a b}, a < b → f a < f b)
    {o : Ordering} {a a' : α} (h : o.Compares a a') : o.Compares (f a) (f a') := by
  cases o with
  | lt => exact hf h
  | eq => exact congrArg f h
  | gt => exact hf h

theorem compares_cons {α : Type} [LT α] {o p : Ordering} {a a' : α} {as as' : List α}
    (ho : o.Compares a a') (hp : p.Compares as as') : (o.then p).Compares (a :: as) (a' :: as') := by
  cases o with
  | lt => exact List.Lex.rel ho
  | gt => exact List.Lex.rel ho
  | eq =>
    obtain rfl : a = a' := ho
    cases p with
    | lt => exact List.Lex.cons hp
    | gt => exact List.Lex.cons hp
    | eq => exact congrArg (a :: ·) hp

namespace Identifier

theorem compareText_compares (a b : List Char) : (compareText a b).Compares a b := by
  induction a generalizing b with
  | nil =>
    cases b with
    | nil => rfl
    | cons d b => exact List.Lex.nil
  | cons c a ih =>
    cases b with
    | nil => exact List.Lex.nil
    | cons d b =>
      refine compares_cons ?_ (ih b)
      rcases lt_trichotomy c.toNat d.toNat with h | h | h
      · rw [Nat.compare_eq_lt.2 h]
        exact h
      · rw [Nat.compare_eq_eq.2 h]
        exact Char.toNat_inj.1 h
      · rw [Nat.compare_eq_gt.2 h]
        exact h

end Identifier

/-! ## Pre-releases -/

namespace Text

theorem decimal_lt_of_digit_lt {c d : Char} {a b : List Char} (ha : ∀ x ∈ a, isDigit x = true)
    (hlen : a.length = b.length) (h : digitValue c < digitValue d) :
    decimal (c :: a) < decimal (d :: b) := by
  rw [decimal_cons, decimal_cons, ← hlen]
  calc digitValue c * 10 ^ a.length + decimal a
      < digitValue c * 10 ^ a.length + 10 ^ a.length := Nat.add_lt_add_left (decimal_lt ha) _
    _ = (digitValue c + 1) * 10 ^ a.length := by ring
    _ ≤ digitValue d * 10 ^ a.length := Nat.mul_le_mul_right _ h
    _ ≤ digitValue d * 10 ^ a.length + decimal b := Nat.le_add_right _ _

end Text

namespace Identifier

/-- Rows of digits of one length are ordered by their values. -/
theorem compareText_compares_decimal {a b : List Char} (ha : ∀ c ∈ a, Text.isDigit c = true)
    (hb : ∀ c ∈ b, Text.isDigit c = true) (hlen : a.length = b.length) :
    (compareText a b).Compares (Text.decimal a) (Text.decimal b) := by
  induction a generalizing b with
  | nil =>
    obtain rfl := List.length_eq_zero_iff.1 hlen.symm
    rfl
  | cons c a ih =>
    cases b with
    | nil => cases hlen
    | cons d b =>
      obtain ⟨hc, ha⟩ := List.forall_mem_cons.1 ha
      obtain ⟨hd, hb⟩ := List.forall_mem_cons.1 hb
      have hcv := (Text.toNat_of_isDigit hc).1
      have hdv := (Text.toNat_of_isDigit hd).1
      rw [compareText]
      rcases lt_trichotomy c.toNat d.toNat with h | h | h
      · rw [Nat.compare_eq_lt.2 h]
        exact Text.decimal_lt_of_digit_lt ha (Nat.succ.inj hlen) (by omega)
      · obtain rfl := Char.toNat_inj.1 h
        have hlen : a.length = b.length := Nat.succ.inj hlen
        rw [Nat.compare_eq_eq.2 rfl, Ordering.then, Text.decimal_cons, Text.decimal_cons, ← hlen]
        exact compares_map (fun h => Nat.add_lt_add_left h _)
          (ih ha (List.forall_mem_cons.1 hb).2 hlen)
      · rw [Nat.compare_eq_gt.2 h]
        exact Text.decimal_lt_of_digit_lt hb (Nat.succ.inj hlen.symm) (by omega)

/-- An identifier of a pre-release: not empty, and without a leading zero if it is a number. -/
structure IsProper (id : Identifier) : Prop where
  nonempty : id ≠ []
  noLeadingZero : id.isNumeric = true → 1 < id.length → id.head? ≠ some '0'

theorem isNumeric_iff (id : Identifier) : id.isNumeric = true ↔ ∀ c ∈ id, Text.isDigit c = true :=
  List.all_eq_true

theorem IsProper.decimal_lt_of_length_lt {a b : Identifier} (hp : a.IsProper) (hq : b.IsProper)
    (ha : a.isNumeric = true) (hb : b.isNumeric = true) (h : a.length < b.length) :
    Text.decimal a < Text.decimal b := by
  cases b with
  | nil => cases h
  | cons d b =>
    have hpos : 0 < a.length := List.length_pos_iff.2 hp.nonempty
    have hzero : d ≠ '0' := by
      rintro rfl
      exact hq.noLeadingZero hb (by omega) rfl
    have hdigit := (List.forall_mem_cons.1 ((isNumeric_iff _).1 hb)).1
    calc Text.decimal a < 10 ^ a.length := Text.decimal_lt ((isNumeric_iff a).1 ha)
      _ ≤ 10 ^ b.length := Nat.pow_le_pow_right (by omega) (Nat.le_of_lt_succ h)
      _ ≤ Text.decimal (d :: b) := Text.le_decimal_cons hdigit hzero

/-- Numbers without leading zeros are ordered by length and then by their digits as they are by
value. -/
theorem IsProper.compares_decimal {a b : Identifier} (hp : a.IsProper) (hq : b.IsProper)
    (ha : a.isNumeric = true) (hb : b.isNumeric = true) :
    ((Ord.compare a.length b.length).then (compareText a b)).Compares
      (Text.decimal a) (Text.decimal b) := by
  rcases lt_trichotomy a.length b.length with h | h | h
  · rw [Nat.compare_eq_lt.2 h]
    exact hp.decimal_lt_of_length_lt hq ha hb h
  · rw [Nat.compare_eq_eq.2 h]
    exact compareText_compares_decimal ((isNumeric_iff a).1 ha) ((isNumeric_iff b).1 hb) h
  · rw [Nat.compare_eq_gt.2 h]
    exact hq.decimal_lt_of_length_lt hp hb ha h

/-- Numbers stand for their values and come before all names. -/
def key (id : Identifier) : ℕ ⊕ₗ List Char :=
  if id.isNumeric then toLex (.inl (Text.decimal id)) else toLex (.inr id)

theorem IsProper.compare_compares {a b : Identifier} (hp : a.IsProper) (hq : b.IsProper) :
    (a.compare b).Compares a.key b.key := by
  unfold Identifier.compare key
  cases ha : a.isNumeric <;> cases hb : b.isNumeric
  · exact compares_map Sum.Lex.inr_lt_inr_iff.2 (compareText_compares a b)
  · exact Sum.Lex.inl_lt_inr _ _
  · exact Sum.Lex.inl_lt_inr _ _
  · exact compares_map Sum.Lex.inl_lt_inl_iff.2 (hp.compares_decimal hq ha hb)

theorem compareRows_compares {as bs : List Identifier} (ha : ∀ a ∈ as, a.IsProper)
    (hb : ∀ b ∈ bs, b.IsProper) : (compareRows as bs).Compares (as.map key) (bs.map key) := by
  induction as generalizing bs with
  | nil =>
    cases bs with
    | nil => rfl
    | cons b bs => exact List.Lex.nil
  | cons a as ih =>
    cases bs with
    | nil => exact List.Lex.nil
    | cons b bs =>
      obtain ⟨ha, has⟩ := List.forall_mem_cons.1 ha
      obtain ⟨hb, hbs⟩ := List.forall_mem_cons.1 hb
      exact compares_cons (ha.compare_compares hb) (ih has hbs)

/-- A release stands above all its pre-releases. -/
def preKey : List Identifier → WithTop (List (ℕ ⊕ₗ List Char))
  | [] => ⊤
  | ids => ↑(ids.map key)

theorem comparePre_compares {as bs : List Identifier} (ha : ∀ a ∈ as, a.IsProper)
    (hb : ∀ b ∈ bs, b.IsProper) : (comparePre as bs).Compares (preKey as) (preKey bs) := by
  cases as with
  | nil =>
    cases bs with
    | nil => rfl
    | cons b bs => exact WithTop.coe_lt_top _
  | cons a as =>
    cases bs with
    | nil => exact WithTop.coe_lt_top _
    | cons b bs =>
      exact compares_map WithTop.coe_lt_coe.2 (compareRows_compares ha hb)

end Identifier

/-! ## Versions -/

namespace Version

/-- What precedence goes by: the three numbers, then the pre-release. -/
abbrev Precedence := ℕ ×ₗ ℕ ×ₗ ℕ ×ₗ WithTop (List (ℕ ⊕ₗ List Char))

def precedence (v : Version) : Precedence :=
  toLex (v.major, toLex (v.minor, toLex (v.patch, Identifier.preKey v.pre)))

/-- The pre-release is made of proper identifiers. -/
def IsProper (v : Version) : Prop := ∀ id ∈ v.pre, id.IsProper

theorem comparePrecedence_compares {v w : Version} (hv : v.IsProper) (hw : w.IsProper) :
    (v.comparePrecedence w).Compares v.precedence w.precedence :=
  compares_then (compares_nat _ _) <| compares_then (compares_nat _ _) <|
    compares_then (compares_nat _ _) (Identifier.comparePre_compares hv hw)

end Version

/-! ## Versions that were read -/

theorem isProper_of_checkIdentifiers {ids : List Identifier}
    (h : checkIdentifiers .pre ids = .ok ()) :
    ∀ id ∈ ids, id.IsProper := by
  induction ids with
  | nil => simp
  | cons id ids ih =>
    rw [checkIdentifiers] at h
    split_ifs at h with hempty hzero
    refine List.forall_mem_cons.2 ⟨⟨hempty, fun hnumeric hlong hhead => ?_⟩, ih h⟩
    exact hzero ⟨rfl, hnumeric, hlong, hhead⟩

theorem isProper_of_readMarkedRow {mark : Char} {before : VersionPart} {cs : List Char}
    {r : List Identifier × VersionPart × List Char}
    (h : readMarkedRow mark .pre before cs = .ok r) : ∀ id ∈ r.1, id.IsProper := by
  unfold readMarkedRow at h
  cases cs with
  | nil =>
    obtain rfl := Except.ok.inj h
    simp
  | cons c cs =>
    simp only at h
    split_ifs at h
    · obtain ⟨⟨ids, rest⟩, hids, hr⟩ := Run.except_bind_eq_ok_iff.1 h
      obtain ⟨_, hcheck, hids⟩ := Run.except_bind_eq_ok_iff.1 hids
      obtain rfl := Except.ok.inj hr
      have hrow := (Prod.mk.inj (Except.ok.inj hids)).1
      exact hrow ▸ isProper_of_checkIdentifiers hcheck
    · obtain rfl := Except.ok.inj h
      simp

namespace Version

theorem isProper_of_readStrict {cs : List Char} {v : Version} (h : readStrict cs = .ok v) :
    v.IsProper := by
  unfold readStrict at h
  split_ifs at h
  · cases h
  obtain ⟨⟨major, cs₁⟩, -, h⟩ := Run.except_bind_eq_ok_iff.1 h
  obtain ⟨cs₂, -, h⟩ := Run.except_bind_eq_ok_iff.1 h
  obtain ⟨⟨minor, cs₃⟩, -, h⟩ := Run.except_bind_eq_ok_iff.1 h
  obtain ⟨cs₄, -, h⟩ := Run.except_bind_eq_ok_iff.1 h
  obtain ⟨⟨patch, cs₅⟩, -, h⟩ := Run.except_bind_eq_ok_iff.1 h
  obtain ⟨⟨pre, last, cs₆⟩, hpre, h⟩ := Run.except_bind_eq_ok_iff.1 h
  obtain ⟨⟨build, last', cs₇⟩, -, h⟩ := Run.except_bind_eq_ok_iff.1 h
  cases cs₇ with
  | nil => exact Except.ok.inj h ▸ isProper_of_readMarkedRow hpre
  | cons c cs => cases h

theorem isProper_of_parse? {text : String} {v : Version} (h : parse? text = some v) :
    v.IsProper := by
  unfold parse? parse readLenient at h
  split at h
  · rename_i w hw
    obtain rfl := Option.some.inj h
    exact isProper_of_readStrict hw
  · split at h
    · rename_i w hw
      obtain ⟨padded, -, hread⟩ := Option.map_eq_some_iff.1 hw
      obtain rfl := Option.some.inj h
      exact isProper_of_readStrict hread
    · cases h

end Version
end ClusterPackages
