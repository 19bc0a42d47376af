import ClusterPackages.Proofs.Upgrade
import ClusterPackages.Proofs.VersionOrder
import ClusterPackages.Proofs.VersionSpelling

/-! In which directions two texts are upgrades of each other. Precedence goes one way. Where it does
not decide, build metadata does, and it goes both ways if it differs and is not two numbers of
sixty-four bits; so do texts that differ and are not both versions. What is tied for good is the same
text, or the same precedence with the same build metadata or number. -/

namespace ClusterPackages

/-! ## Build metadata in both directions -/

theorem IsBuildNumber.unique {ids : List Identifier} {m n : ℕ} (hm : IsBuildNumber ids m)
    (hn : IsBuildNumber ids n) : m = n := by
  have h := (buildNumber?_eq_some_iff ids m).2 hm
  rw [(buildNumber?_eq_some_iff ids n).2 hn] at h
  exact (Option.some.inj h).symm

theorem IsBuildNumber.ne_nil {ids : List Identifier} {n : ℕ} (h : IsBuildNumber ids n) : ids ≠ [] := by
  rintro rfl
  cases (buildNumber?_eq_some_iff [] n).2 h

variable {as bs : List Identifier}

theorem advances_both_iff :
    BuildAdvances as bs ∧ BuildAdvances bs as ↔
      as ≠ bs ∧ as ≠ [] ∧ bs ≠ [] ∧ ¬ ∃ m n : ℕ, IsBuildNumber as m ∧ IsBuildNumber bs n := by
  constructor
  · rintro ⟨h, h'⟩
    refine ⟨h'.different, h'.present, h.present, ?_⟩
    rintro ⟨m, n, hm, hn⟩
    exact (h.larger m n hm hn).asymm (h'.larger n m hn hm)
  · rintro ⟨different, left, right, hnumbers⟩
    exact ⟨⟨right, different.symm, fun m n hm hn => absurd ⟨m, n, hm, hn⟩ hnumbers⟩,
      ⟨left, different, fun n m hn hm => absurd ⟨m, n, hm, hn⟩ hnumbers⟩⟩

/-- Whoever does not advance is absent, the same, or a number that is not larger. -/
theorem not_advances_iff :
    ¬ BuildAdvances as bs ↔
      bs = [] ∨ bs = as ∨ ∃ m n : ℕ, IsBuildNumber as m ∧ IsBuildNumber bs n ∧ n ≤ m := by
  constructor
  · intro h
    by_contra hnone
    obtain ⟨present, different, hnumbers⟩ := by simpa only [not_or] using hnone
    refine h ⟨present, different, fun m n hm hn => ?_⟩
    by_contra hle
    exact hnumbers ⟨m, n, hm, hn, not_lt.1 hle⟩
  · rintro (absent | same | ⟨m, n, hm, hn, hle⟩) h
    · exact h.present absent
    · exact h.different same
    · exact (h.larger m n hm hn).not_ge hle

theorem advances_neither_iff :
    ¬ BuildAdvances as bs ∧ ¬ BuildAdvances bs as ↔
      as = bs ∨ ∃ n : ℕ, IsBuildNumber as n ∧ IsBuildNumber bs n := by
  rw [not_advances_iff, not_advances_iff]
  constructor
  · rintro ⟨rfl | same | ⟨m, n, hm, hn, hle⟩, h'⟩
    · -- nothing there and nothing that advances over it
      rcases h' with h' | h' | ⟨m, n, hm, -⟩
      · exact .inl h'
      · exact .inl h'
      · exact absurd rfl hm.ne_nil
    · exact .inl same.symm
    · rcases h' with absent | same | ⟨n', m', hn', hm', hle'⟩
      · exact absurd absent hm.ne_nil
      · exact .inl same
      · obtain rfl := hm.unique hm'
        obtain rfl := hn.unique hn'
        exact .inr ⟨m, hm, le_antisymm hle hle' ▸ hn⟩
  · rintro (rfl | ⟨n, hm, hn⟩)
    · exact ⟨.inr (.inl rfl), .inr (.inl rfl)⟩
    · exact ⟨.inr (.inr ⟨n, n, hm, hn, le_rfl⟩), .inr (.inr ⟨n, n, hn, hm, le_rfl⟩)⟩

theorem advances_only_iff :
    BuildAdvances as bs ∧ ¬ BuildAdvances bs as ↔
      as = [] ∧ bs ≠ [] ∨ ∃ m n : ℕ, IsBuildNumber as m ∧ IsBuildNumber bs n ∧ m < n := by
  rw [not_advances_iff]
  constructor
  · rintro ⟨h, absent | same | ⟨n, m, hn, hm, hle⟩⟩
    · exact .inl ⟨absent, h.present⟩
    · exact absurd same.symm h.different
    · exact .inr ⟨m, n, hm, hn, h.larger m n hm hn⟩
  · rintro (⟨rfl, present⟩ | ⟨m, n, hm, hn, hlt⟩)
    · exact ⟨⟨present, present, fun m n hm => absurd rfl hm.ne_nil⟩, .inl rfl⟩
    · refine ⟨⟨hn.ne_nil, ?_, fun m' n' hm' hn' => ?_⟩, .inr (.inr ⟨n, m, hn, hm, hlt.le⟩)⟩
      · rintro rfl
        exact hlt.ne (hm.unique hn)
      · rw [hm'.unique hm, hn'.unique hn]
        exact hlt

/-! ## Two texts -/

/-- Two texts that replace each other for ever. -/
inductive UpgradesBothWays (a b : String) : Prop
  | unreadable (differ : a ≠ b) (unreadable : Version.parse? a = none ∨ Version.parse? b = none)
  | builds {v w : Version} (ha : Version.parse? a = some v) (hb : Version.parse? b = some w)
      (tied : v.precedence = w.precedence) (differ : v.build ≠ w.build) (left : v.build ≠ [])
      (right : w.build ≠ [])
      (noNumbers : ¬ ∃ m n : ℕ, IsBuildNumber v.build m ∧ IsBuildNumber w.build n)

/-- Two texts that never replace each other. -/
inductive UpgradesNeitherWay (a b : String) : Prop
  | same (same : a = b)
  | builds {v w : Version} (ha : Version.parse? a = some v) (hb : Version.parse? b = some w)
      (tied : v.precedence = w.precedence)
      (alike : v.build = w.build ∨ ∃ n : ℕ, IsBuildNumber v.build n ∧ IsBuildNumber w.build n)

/-- The second text replaces the first, and the first does not come back. -/
inductive UpgradesOnward (a b : String) : Prop
  | precedence {v w : Version} (ha : Version.parse? a = some v) (hb : Version.parse? b = some w)
      (lower : v.precedence < w.precedence)
  | firstBuild {v w : Version} (ha : Version.parse? a = some v) (hb : Version.parse? b = some w)
      (tied : v.precedence = w.precedence) (left : v.build = []) (right : w.build ≠ [])
  | nextBuild {v w : Version} {m n : ℕ} (ha : Version.parse? a = some v)
      (hb : Version.parse? b = some w) (tied : v.precedence = w.precedence)
      (left : IsBuildNumber v.build m) (right : IsBuildNumber w.build n) (lower : m < n)

variable {a b : String} {v w : Version}

theorem follows_both_iff :
    v.Follows w ∧ w.Follows v ↔
      v.precedence = w.precedence ∧ BuildAdvances v.build w.build ∧ BuildAdvances w.build v.build := by
  constructor
  · rintro ⟨h, h'⟩
    have tied := le_antisymm h.precedence_le h'.precedence_le
    exact ⟨tied, h.build tied, h'.build tied.symm⟩
  · rintro ⟨tied, h, h'⟩
    exact ⟨⟨tied.le, fun _ => h⟩, ⟨tied.ge, fun _ => h'⟩⟩

theorem follows_neither_iff :
    ¬ v.Follows w ∧ ¬ w.Follows v ↔
      v.precedence = w.precedence ∧ ¬ BuildAdvances v.build w.build ∧
        ¬ BuildAdvances w.build v.build := by
  rw [Version.not_follows_iff, Version.not_follows_iff]
  constructor
  · rintro ⟨hlt | ⟨tied, h⟩, hlt' | ⟨tied', h'⟩⟩
    · exact absurd hlt' hlt.asymm
    · exact absurd tied' hlt.ne'
    · exact absurd tied hlt'.ne'
    · exact ⟨tied', h, h'⟩
  · rintro ⟨tied, h, h'⟩
    exact ⟨.inr ⟨tied.symm, h⟩, .inr ⟨tied, h'⟩⟩

theorem follows_only_iff :
    v.Follows w ∧ ¬ w.Follows v ↔
      v.precedence < w.precedence ∨ v.precedence = w.precedence ∧
        BuildAdvances v.build w.build ∧ ¬ BuildAdvances w.build v.build := by
  rw [Version.not_follows_iff]
  constructor
  · rintro ⟨h, hlt | ⟨tied, h'⟩⟩
    · exact .inl hlt
    · exact .inr ⟨tied, h.build tied, h'⟩
  · rintro (hlt | ⟨tied, h, h'⟩)
    · exact ⟨⟨hlt.le, fun tied => absurd tied hlt.ne⟩, .inl hlt⟩
    · exact ⟨⟨tied.le, fun _ => h⟩, .inr ⟨tied, h'⟩⟩

theorem upgradesBothWays_iff_of_parse (ha : Version.parse? a = some v) (hb : Version.parse? b = some w) :
    UpgradesBothWays a b ↔ v.Follows w ∧ w.Follows v := by
  rw [follows_both_iff, advances_both_iff]
  constructor
  · rintro (⟨-, hnone | hnone⟩ | ⟨ha', hb', tied, differ, left, right, noNumbers⟩)
    · simp [ha] at hnone
    · simp [hb] at hnone
    · obtain rfl := Option.some.inj (ha.symm.trans ha')
      obtain rfl := Option.some.inj (hb.symm.trans hb')
      exact ⟨tied, differ, left, right, noNumbers⟩
  · rintro ⟨tied, differ, left, right, noNumbers⟩
    exact .builds ha hb tied differ left right noNumbers

theorem upgradesNeitherWay_iff_of_parse (ha : Version.parse? a = some v)
    (hb : Version.parse? b = some w) : UpgradesNeitherWay a b ↔ ¬ v.Follows w ∧ ¬ w.Follows v := by
  rw [follows_neither_iff, advances_neither_iff]
  constructor
  · rintro (rfl | ⟨ha', hb', tied, alike⟩)
    · obtain rfl := Option.some.inj (ha.symm.trans hb)
      exact ⟨rfl, .inl rfl⟩
    · obtain rfl := Option.some.inj (ha.symm.trans ha')
      obtain rfl := Option.some.inj (hb.symm.trans hb')
      exact ⟨tied, alike⟩
  · rintro ⟨tied, alike⟩
    exact .builds ha hb tied alike

theorem upgradesOnward_iff_of_parse (ha : Version.parse? a = some v) (hb : Version.parse? b = some w) :
    UpgradesOnward a b ↔ v.Follows w ∧ ¬ w.Follows v := by
  rw [follows_only_iff, advances_only_iff]
  constructor
  · rintro (⟨ha', hb', lower⟩ | ⟨ha', hb', tied, left, right⟩ | ⟨ha', hb', tied, left, right, lower⟩)
    all_goals
      obtain rfl := Option.some.inj (ha.symm.trans ha')
      obtain rfl := Option.some.inj (hb.symm.trans hb')
    · exact .inl lower
    · exact .inr ⟨tied, .inl ⟨left, right⟩⟩
    · exact .inr ⟨tied, .inr ⟨_, _, left, right, lower⟩⟩
  · rintro (lower | ⟨tied, ⟨left, right⟩ | ⟨m, n, left, right, lower⟩⟩)
    · exact .precedence ha hb lower
    · exact .firstBuild ha hb tied left right
    · exact .nextBuild ha hb tied left right lower

/-! ## Texts that are no versions -/

/-- One of two texts is no version. -/
def IsUnreadable (a b : String) : Prop := Version.parse? a = none ∨ Version.parse? b = none

theorem IsUnreadable.not_parse (h : IsUnreadable a b) (ha : Version.parse? a = some v)
    (hb : Version.parse? b = some w) : False := by
  rcases h with h | h
  · rw [ha] at h
    cases h
  · rw [hb] at h
    cases h

theorem upgradesBothWays_iff_of_unreadable (h : IsUnreadable a b) : UpgradesBothWays a b ↔ a ≠ b := by
  constructor
  · rintro (⟨differ, -⟩ | ⟨ha, hb, -⟩)
    · exact differ
    · exact (h.not_parse ha hb).elim
  · exact fun differ => .unreadable differ h

theorem upgradesNeitherWay_iff_of_unreadable (h : IsUnreadable a b) : UpgradesNeitherWay a b ↔ a = b := by
  constructor
  · rintro (same | ⟨ha, hb, -⟩)
    · exact same
    · exact (h.not_parse ha hb).elim
  · exact .same

theorem not_upgradesOnward_of_unreadable (h : IsUnreadable a b) : ¬ UpgradesOnward a b := by
  rintro (⟨ha, hb, -⟩ | ⟨ha, hb, -⟩ | ⟨ha, hb, -⟩)
  all_goals exact h.not_parse ha hb

/-! ## All texts -/

/-- Two texts are upgrades of each other, or neither is, or one is of the other and that is all; and what
they are read as tells which. No text is an upgrade of itself. -/
theorem upgrades_both_ways_onward_or_never (a b : String) :
    (isUpgradable a b = true ∧ isUpgradable b a = true ↔ UpgradesBothWays a b) ∧
    (isUpgradable a b = false ∧ isUpgradable b a = false ↔ UpgradesNeitherWay a b) ∧
    (isUpgradable a b = true ∧ isUpgradable b a = false ↔ UpgradesOnward a b) ∧
    (¬ UpgradesBothWays a b → ¬ UpgradesNeitherWay a b → isUpgradable a b = !isUpgradable b a) ∧
    isUpgradable a a = false := by
  have directions :
      (isUpgradable a b = true ∧ isUpgradable b a = true ↔ UpgradesBothWays a b) ∧
      (isUpgradable a b = false ∧ isUpgradable b a = false ↔ UpgradesNeitherWay a b) ∧
      (isUpgradable a b = true ∧ isUpgradable b a = false ↔ UpgradesOnward a b) := by
    by_cases hread : IsUnreadable a b
    · have hback : isUpgradable b a = (a != b) := (isUpgradable_of_unreadable hread.symm).trans bne_comm
      rw [isUpgradable_of_unreadable hread, hback, upgradesBothWays_iff_of_unreadable hread,
        upgradesNeitherWay_iff_of_unreadable hread,
        iff_false_intro (not_upgradesOnward_of_unreadable hread)]
      by_cases same : a = b
      · simp [same]
      · simp [same]
    · obtain ⟨hleft, hright⟩ := not_or.1 hread
      obtain ⟨v, ha⟩ := Option.ne_none_iff_exists'.1 hleft
      obtain ⟨w, hb⟩ := Option.ne_none_iff_exists'.1 hright
      rw [upgradesBothWays_iff_of_parse ha hb, upgradesNeitherWay_iff_of_parse ha hb,
        upgradesOnward_iff_of_parse ha hb, ← isUpgradable_iff_follows ha hb,
        ← isUpgradable_iff_follows hb ha, Bool.not_eq_true, Bool.not_eq_true]
      exact ⟨Iff.rfl, Iff.rfl, Iff.rfl⟩
  obtain ⟨both, neither, onward⟩ := directions
  refine ⟨both, neither, onward, fun hboth hneither => ?_, isUpgradable_self a⟩
  cases hthere : isUpgradable a b <;> cases hback : isUpgradable b a
  · exact absurd (neither.1 ⟨hthere, hback⟩) hneither
  · rfl
  · rfl
  · exact absurd (both.1 ⟨hthere, hback⟩) hboth

/-- Build metadata goes both ways once two words differ, and numbers that are equal go neither way. -/
example :
    isUpgradable "1.0.0+a" "1.0.0+b" = true ∧ isUpgradable "1.0.0+b" "1.0.0+a" = true ∧
    isUpgradable "1.0.0+7" "v1+007" = false ∧ isUpgradable "v1+007" "1.0.0+7" = false := by
  decide +kernel

/-! ## Numbers of any size -/

/-- A row that is nothing but digits is one identifier. -/
theorem exists_of_isDigits_row {ids : List Identifier} (h : Version.IsDigits (Identifier.row ids)) :
    ∃ id, ids = [id] ∧ Version.IsDigits id := by
  obtain ⟨nonempty, digits⟩ := h
  rcases ids with _ | ⟨id, _ | ⟨next, ids⟩⟩
  · exact absurd rfl nonempty
  · exact ⟨id, rfl, nonempty, digits⟩
  · have hdot : '.' ∈ Identifier.row (id :: next :: ids) := by
      rw [Identifier.row, Text.join_cons_cons]
      simp
    exact absurd (digits '.' hdot) (by decide)

theorem isBuildNumber_iff {id : Identifier} (h : Version.IsDigits id) (n : ℕ) :
    IsBuildNumber [id] n ↔ Text.decimal id < 2 ^ 64 ∧ n = Text.decimal id := by
  constructor
  · intro hn
    obtain ⟨⟨-, -, fits⟩, hvalue⟩ := Option.ite_none_right_eq_some.1 ((buildNumber?_eq_some_iff _ n).2 hn)
    exact ⟨fits, (Option.some.inj hvalue).symm⟩
  · rintro ⟨fits, rfl⟩
    exact .number h.1 h.2 fits

theorem advances_digits_iff {id id' : Identifier} (h : Version.IsDigits id)
    (h' : Version.IsDigits id') :
    BuildAdvances [id] [id'] ↔
      id ≠ id' ∧ (Text.decimal id < 2 ^ 64 → Text.decimal id' < 2 ^ 64 →
        Text.decimal id < Text.decimal id') := by
  constructor
  · rintro ⟨-, different, larger⟩
    refine ⟨fun same => different (by rw [same]), fun fits fits' => ?_⟩
    exact larger _ _ ((isBuildNumber_iff h _).2 ⟨fits, rfl⟩) ((isBuildNumber_iff h' _).2 ⟨fits', rfl⟩)
  · rintro ⟨different, larger⟩
    refine ⟨List.cons_ne_nil _ _, fun same => different (List.cons.inj same).1.symm,
      fun m n hm hn => ?_⟩
    obtain ⟨fits, rfl⟩ := (isBuildNumber_iff h m).1 hm
    obtain ⟨fits', rfl⟩ := (isBuildNumber_iff h' n).1 hn
    exact larger fits fits'

theorem isUpgradable_iff_of_tied (ha : Version.parse? a = some v) (hb : Version.parse? b = some w)
    (tied : v.precedence = w.precedence) :
    isUpgradable a b = true ↔ BuildAdvances v.build w.build := by
  rw [isUpgradable_iff_follows ha hb]
  exact ⟨fun h => h.build tied, fun h => ⟨tied.le, fun _ => h⟩⟩

/-- Build metadata made of digits goes by its value if both sides have sixty-four bits. A larger number is
told apart from every other text and goes both ways; so it is in order only where it is the newer one,
or the same text. -/
theorem integer_builds_by_value_if_they_fit (ha : Version.parse? a = some v)
    (hb : Version.parse? b = some w) (tied : v.precedence = w.precedence)
    (hv : Version.IsDigits (Identifier.row v.build)) (hw : Version.IsDigits (Identifier.row w.build)) :
    let i := Text.decimal (Identifier.row v.build)
    let l := Text.decimal (Identifier.row w.build)
    (i < 2 ^ 64 ∧ l < 2 ^ 64 → (isUpgradable a b = true ↔ i < l)) ∧
    (2 ^ 64 ≤ i ∨ 2 ^ 64 ≤ l → (isUpgradable a b = true ↔ v.build ≠ w.build)) ∧
    ((isUpgradable a b = true ↔ i < l) ↔
      i < 2 ^ 64 ∧ l < 2 ^ 64 ∨ v.build = w.build ∨ i < l) := by
  intro i l
  obtain ⟨id, hid, hdigits⟩ := exists_of_isDigits_row hv
  obtain ⟨id', hid', hdigits'⟩ := exists_of_isDigits_row hw
  have hi : i = Text.decimal id := by simp only [i, hid]; rfl
  have hl : l = Text.decimal id' := by simp only [l, hid']; rfl
  have hsame : v.build = w.build ↔ id = id' := by rw [hid, hid', List.singleton_inj]
  have hlt : i < l → id ≠ id' := by
    rintro hlt rfl
    exact hlt.ne (hi.trans hl.symm)
  have hupgrade : isUpgradable a b = true ↔ id ≠ id' ∧ (i < 2 ^ 64 → l < 2 ^ 64 → i < l) := by
    rw [isUpgradable_iff_of_tied ha hb tied, hid, hid', advances_digits_iff hdigits hdigits', hi, hl]
  rw [hupgrade, hsame]
  by_cases fits : i < 2 ^ 64 ∧ l < 2 ^ 64
  · have hbig : ¬ (2 ^ 64 ≤ i ∨ 2 ^ 64 ≤ l) := by omega
    have hvalue : id ≠ id' ∧ (i < 2 ^ 64 → l < 2 ^ 64 → i < l) ↔ i < l :=
      ⟨fun h => h.2 fits.1 fits.2, fun h => ⟨hlt h, fun _ _ => h⟩⟩
    exact ⟨fun _ => hvalue, fun h => absurd h hbig, iff_of_true hvalue (.inl fits)⟩
  · have htext : id ≠ id' ∧ (i < 2 ^ 64 → l < 2 ^ 64 → i < l) ↔ id ≠ id' :=
      ⟨fun h => h.1, fun h => ⟨h, fun fit fit' => absurd ⟨fit, fit'⟩ fits⟩⟩
    rw [htext]
    refine ⟨fun h => absurd h fits, fun _ => (not_congr hsame).symm, ?_⟩
    constructor
    · intro h
      by_cases same : id = id'
      · exact .inr (.inl same)
      · exact .inr (.inr (h.1 same))
    · rintro (fit | same | hless)
      · exact absurd fit fits
      · exact iff_of_false (fun h => h same) (fun h => hlt h same)
      · exact iff_of_true (hlt hless) hless

/-- Twelve and thirteen are in order, with a zero in front of one or not. -/
theorem integer_builds_by_value_if_they_fit_zero :
    let v : Version := { major := 1, minor := 0, patch := 0, pre := [], build := ["012".toList] }
    let w : Version := { major := 1, minor := 0, patch := 0, pre := [], build := ["13".toList] }
    Version.parse? "v1+012" = some v ∧ Version.parse? "1.0.0+13" = some w ∧
    v.precedence = w.precedence ∧ Version.IsDigits (Identifier.row v.build) ∧
    Version.IsDigits (Identifier.row w.build) ∧ isUpgradable "v1+012" "1.0.0+13" = true := by
  intro v w
  have ha : Version.parse? "v1+012" = some v := by decide +kernel
  have hb : Version.parse? "1.0.0+13" = some w := by decide +kernel
  have hv : Version.IsDigits (Identifier.row v.build) := by decide +kernel
  have hw : Version.IsDigits (Identifier.row w.build) := by decide +kernel
  have fits : Text.decimal (Identifier.row v.build) < 2 ^ 64 ∧
      Text.decimal (Identifier.row w.build) < 2 ^ 64 := by decide +kernel
  exact ⟨ha, hb, rfl, hv, hw,
    ((integer_builds_by_value_if_they_fit ha hb rfl hv hw).1 fits).2 (by decide +kernel)⟩

/-- A build number of more than sixty-four bits gives way to one. -/
theorem large_build_number_goes_back :
    let v : Version :=
      { major := 1, minor := 0, patch := 0, pre := [], build := ["18446744073709551616".toList] }
    let w : Version := { major := 1, minor := 0, patch := 0, pre := [], build := ["1".toList] }
    Version.parse? "1.0.0+18446744073709551616" = some v ∧ Version.parse? "1.0.0+1" = some w ∧
    v.precedence = w.precedence ∧ Version.IsDigits (Identifier.row v.build) ∧
    Version.IsDigits (Identifier.row w.build) ∧
    ¬ (isUpgradable "1.0.0+18446744073709551616" "1.0.0+1" = true ↔
      Text.decimal (Identifier.row v.build) < Text.decimal (Identifier.row w.build)) := by
  intro v w
  have hnot : ¬ Text.decimal (Identifier.row v.build) < Text.decimal (Identifier.row w.build) := by
    decide +kernel
  have hback : isUpgradable "1.0.0+18446744073709551616" "1.0.0+1" = true := by decide +kernel
  exact ⟨by decide +kernel, by decide +kernel, rfl, by decide +kernel, by decide +kernel,
    fun h => hnot (h.1 hback)⟩

end ClusterPackages
