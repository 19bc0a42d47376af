import ClusterPackages.Proofs.Precedence

/-! When one version is an upgrade of another. Precedence decides, then the build metadata; over
versions whose build metadata is a number or absent, that is a linear order of keys. -/

namespace ClusterPackages

namespace Version

theorem isUpgrade_iff {v w : Version} (hv : v.IsProper) (hw : w.IsProper) :
    v.isUpgrade w = true ↔
      v.precedence < w.precedence ∨
        v.precedence = w.precedence ∧ isBuildUpgrade v.build w.build = true := by
  have h := comparePrecedence_compares hw hv
  unfold isUpgrade
  cases hcmp : w.comparePrecedence v with
  | lt =>
    rw [hcmp] at h
    have hlt : w.precedence < v.precedence := h
    simp [hlt.not_gt, hlt.ne']
  | eq =>
    rw [hcmp] at h
    have heq : w.precedence = v.precedence := h
    simp [heq]
  | gt =>
    rw [hcmp] at h
    have hlt : v.precedence < w.precedence := h
    simp [hlt]

end Version

theorem isUpgradable_of_parse {a b : String} {v w : Version} (ha : Version.parse? a = some v)
    (hb : Version.parse? b = some w) : isUpgradable a b = v.isUpgrade w := by
  unfold isUpgradable
  rw [ha, hb]

/-- Texts that are no versions are told apart as they are. -/
theorem isUpgradable_of_unreadable {a b : String}
    (h : Version.parse? a = none ∨ Version.parse? b = none) :
    isUpgradable a b = (a != b) := by
  unfold isUpgradable
  rcases h with h | h
  · rw [h]
  · rw [h]
    cases Version.parse? a <;> rfl

/-! ## Build metadata -/

/-- Build metadata that is absent or one number of sixty-four bits, and that number. -/
inductive IsBuildNumber : List Identifier → WithBot ℕ → Prop
  | absent : IsBuildNumber [] ⊥
  | number {id : Identifier} (nonempty : id ≠ []) (digits : ∀ c ∈ id, Text.isDigit c = true)
      (fits : Text.decimal id < 2 ^ 64) : IsBuildNumber [id] (Text.decimal id)

theorem buildNumber?_eq {id : Identifier} (nonempty : id ≠ [])
    (digits : ∀ c ∈ id, Text.isDigit c = true) (fits : Text.decimal id < 2 ^ 64) :
    buildNumber? [id] = some (Text.decimal id) :=
  if_pos ⟨nonempty, (Identifier.isNumeric_iff id).2 digits, fits⟩

/-- Numbers decide by their values, leading zeros or not; any number is newer than none. -/
theorem isBuildUpgrade_iff {as bs : List Identifier} {m n : WithBot ℕ} (ha : IsBuildNumber as m)
    (hb : IsBuildNumber bs n) : isBuildUpgrade as bs = true ↔ m < n := by
  cases ha with
  | absent =>
    cases hb with
    | absent => simp [isBuildUpgrade]
    | number nonempty digits fits => simp [isBuildUpgrade]
  | number nonempty digits fits =>
    cases hb with
    | absent => simp [isBuildUpgrade]
    | number nonempty' digits' fits' =>
      rename_i id id'
      unfold isBuildUpgrade
      rw [buildNumber?_eq nonempty digits fits, buildNumber?_eq nonempty' digits' fits']
      by_cases hid : id = id'
      · simp [hid]
      · simp [hid]

/-! ## Moving on -/

/-- Build metadata that tells a version from one of the same precedence, and is no lower number. -/
structure BuildAdvances (as bs : List Identifier) : Prop where
  present : bs ≠ []
  different : bs ≠ as
  larger : ∀ m n : ℕ, IsBuildNumber as m → IsBuildNumber bs n → m < n

theorem buildNumber?_eq_some_iff (ids : List Identifier) (n : ℕ) :
    buildNumber? ids = some n ↔ IsBuildNumber ids n := by
  constructor
  · intro h
    unfold buildNumber? at h
    split at h
    · split_ifs at h with hid
      obtain ⟨nonempty, digits, fits⟩ := hid
      obtain rfl := Option.some.inj h
      exact .number nonempty ((Identifier.isNumeric_iff _).1 digits) fits
    · cases h
  · generalize hm : (n : WithBot ℕ) = m
    intro h
    cases h with
    | absent => exact absurd hm WithBot.coe_ne_bot
    | number nonempty digits fits =>
      obtain rfl : n = Text.decimal _ := WithBot.coe_inj.1 hm
      exact buildNumber?_eq nonempty digits fits

theorem isBuildUpgrade_iff_advances (as bs : List Identifier) :
    isBuildUpgrade as bs = true ↔ BuildAdvances as bs := by
  unfold isBuildUpgrade
  split_ifs with hsame habsent
  · refine ⟨fun h => (by cases h), fun ⟨present, different, _⟩ => ?_⟩
    rcases hsame with rfl | rfl
    · exact absurd rfl different
    · exact absurd rfl present
  all_goals
    obtain ⟨different, present⟩ := not_or.1 hsame
  · subst habsent
    refine ⟨fun _ => ⟨present, fun h => different h.symm, fun m n hm => ?_⟩, fun _ => rfl⟩
    cases (buildNumber?_eq_some_iff [] m).2 hm
  · -- both are there and differ; only two numbers can still stand in the way
    constructor
    · intro h
      refine ⟨present, fun h => different h.symm, fun m n hm hn => ?_⟩
      rw [(buildNumber?_eq_some_iff as m).2 hm, (buildNumber?_eq_some_iff bs n).2 hn] at h
      simpa using h
    · intro h
      cases hm : buildNumber? as with
      | none => rfl
      | some m =>
        cases hn : buildNumber? bs with
        | none => rfl
        | some n =>
          have hlt := h.larger m n ((buildNumber?_eq_some_iff as m).1 hm)
            ((buildNumber?_eq_some_iff bs n).1 hn)
          simpa using hlt

namespace Version

/-- A version that may take the place of another. -/
structure Follows (i l : Version) : Prop where
  precedence_le : i.precedence ≤ l.precedence
  build : i.precedence = l.precedence → BuildAdvances i.build l.build

theorem isUpgrade_iff_follows {i l : Version} (hi : i.IsProper) (hl : l.IsProper) :
    i.isUpgrade l = true ↔ i.Follows l := by
  rw [isUpgrade_iff hi hl, isBuildUpgrade_iff_advances]
  constructor
  · rintro (hlt | ⟨heq, hbuild⟩)
    · exact ⟨hlt.le, fun heq => absurd heq hlt.ne⟩
    · exact ⟨heq.le, fun _ => hbuild⟩
  · rintro ⟨hle, hbuild⟩
    exact hle.lt_or_eq.imp_right fun heq => ⟨heq, hbuild heq⟩

theorem not_follows_iff (i l : Version) :
    ¬ i.Follows l ↔ l.precedence < i.precedence ∨
      l.precedence = i.precedence ∧ ¬ BuildAdvances i.build l.build := by
  constructor
  · intro h
    rcases lt_trichotomy l.precedence i.precedence with hlt | heq | hgt
    · exact .inl hlt
    · exact .inr ⟨heq, fun hbuild => h ⟨heq.ge, fun _ => hbuild⟩⟩
    · exact absurd ⟨hgt.le, fun heq => absurd heq hgt.ne⟩ h
  · rintro (hlt | ⟨heq, hbuild⟩) h
    · exact absurd h.precedence_le hlt.not_ge
    · exact hbuild (h.build heq.symm)

end Version

theorem isUpgradable_iff_follows {a b : String} {v w : Version} (ha : Version.parse? a = some v)
    (hb : Version.parse? b = some w) : isUpgradable a b = true ↔ v.Follows w := by
  rw [isUpgradable_of_parse ha hb]
  exact Version.isUpgrade_iff_follows (Version.isProper_of_parse? ha) (Version.isProper_of_parse? hb)

/-! ## Versions with build numbers -/

/-- A text that is a version whose build metadata is absent or a number of sixty-four bits. -/
structure NumberedText where
  text : String
  version : Version
  number : WithBot ℕ
  parses : Version.parse? text = some version
  isNumber : IsBuildNumber version.build number

namespace NumberedText

/-- The numbers, the pre-release and the build number, in this order. -/
def key (a : NumberedText) : Version.Precedence ×ₗ WithBot ℕ :=
  toLex (a.version.precedence, a.number)

theorem isUpgradable_iff (a b : NumberedText) :
    isUpgradable a.text b.text = true ↔ a.key < b.key := by
  have ha := Version.isProper_of_parse? a.parses
  have hb := Version.isProper_of_parse? b.parses
  rw [isUpgradable_of_parse a.parses b.parses, Version.isUpgrade_iff ha hb,
    isBuildUpgrade_iff a.isNumber b.isNumber]
  exact (Prod.Lex.toLex_lt_toLex (x := (a.version.precedence, a.number))
    (y := (b.version.precedence, b.number))).symm

theorem isUpgradable_eq_false_iff (a b : NumberedText) :
    isUpgradable a.text b.text = false ↔ b.key ≤ a.key := by
  rw [← not_lt, ← isUpgradable_iff, Bool.not_eq_true]

/-- Over versions with build numbers, being an upgrade is the strict order of the keys. So it is a
strict weak order, in which versions are tied if precedence and build number agree. -/
theorem isUpgradable_strictWeakOrder :
    (∀ a b : NumberedText, isUpgradable a.text b.text = true ↔ a.key < b.key) ∧
    (∀ a : NumberedText, isUpgradable a.text a.text = false) ∧
    (∀ a b : NumberedText, isUpgradable a.text b.text = true → isUpgradable b.text a.text = false) ∧
    (∀ a b c : NumberedText, isUpgradable a.text b.text = true → isUpgradable b.text c.text = true →
      isUpgradable a.text c.text = true) ∧
    (∀ a b c : NumberedText,
      isUpgradable a.text b.text = false ∧ isUpgradable b.text a.text = false →
      isUpgradable b.text c.text = false ∧ isUpgradable c.text b.text = false →
      isUpgradable a.text c.text = false ∧ isUpgradable c.text a.text = false) ∧
    ∀ a b : NumberedText,
      isUpgradable a.text b.text = false ∧ isUpgradable b.text a.text = false ↔
        a.version.precedence = b.version.precedence ∧ a.number = b.number := by
  have tied_iff (a b : NumberedText) :
      isUpgradable a.text b.text = false ∧ isUpgradable b.text a.text = false ↔ a.key = b.key := by
    rw [isUpgradable_eq_false_iff, isUpgradable_eq_false_iff, le_antisymm_iff, and_comm]
  refine ⟨isUpgradable_iff, fun a => ?_, fun a b hab => ?_, fun a b c hab hbc => ?_,
    fun a b c hab hbc => ?_, fun a b => ?_⟩
  · exact (isUpgradable_eq_false_iff a a).2 le_rfl
  · exact (isUpgradable_eq_false_iff b a).2 ((isUpgradable_iff a b).1 hab).le
  · have hkeys := ((isUpgradable_iff a b).1 hab).trans ((isUpgradable_iff b c).1 hbc)
    exact (isUpgradable_iff a c).2 hkeys
  · exact (tied_iff a c).2 (((tied_iff a b).1 hab).trans ((tied_iff b c).1 hbc))
  · rw [tied_iff]
    exact toLex.injective.eq_iff.trans Prod.mk_inj

/-- Zeros before a build number tell nothing apart; numbers in a pre-release count as numbers. -/
example :
    isUpgradable "v1+07" "1.0.0+7" = false ∧ isUpgradable "1.0.0-rc.9" "1.0.0-rc.10" = true := by
  decide +kernel

end NumberedText
end ClusterPackages
