import ClusterPackages.Proofs.VersionOrder
import ClusterPackages.Proofs.VersionSpelling

/-! The text of a version. Numbers are written in decimal digits that read back and rows as they were read,
so the text of a version that was read is a spelling of it. Upgrades go by what a text is read as; so
all spellings of a version, and its text with them, are as good as each other. -/

namespace ClusterPackages

namespace Version

open Text

/-! ## Printing -/

theorem digitChar_ne_zero : ∀ d < 10, 0 < d → Nat.digitChar d ≠ '0' := by decide

/-- The digits of a number begin with a zero only if it is zero. -/
theorem head?_toDigits_ne {n : ℕ} (hpos : 0 < n) : (Nat.toDigits 10 n).head? ≠ some '0' := by
  induction n using Nat.strongRecOn with
  | ind n ih =>
    -- the last digit comes off, and what it is taken from keeps the first
    by_cases hsmall : n < 10
    · rw [Nat.toDigits_of_lt_base hsmall]
      exact mt Option.some.inj (digitChar_ne_zero n hsmall hpos)
    · have hquotient := ih (n / 10) (by omega) (by omega)
      rw [Nat.toDigits_of_base_le (by decide) (by omega)]
      cases hdigits : Nat.toDigits 10 (n / 10) with
      | nil => exact absurd hdigits (List.ne_nil_of_length_pos Nat.length_toDigits_pos)
      | cons d ds =>
        rw [hdigits] at hquotient
        exact hquotient

theorem isNumber_number {n : ℕ} (fits : n < 2 ^ 64) : IsNumber (number n) n := by
  have hdigits : number n = Nat.toDigits 10 n := Nat.toList_repr
  rw [hdigits]
  refine ⟨List.ne_nil_of_length_pos Nat.length_toDigits_pos, fun c hc => ?_, fun hlong => ?_,
    Nat.ofDigitChars_toDigits (by decide) (by decide), fits⟩
  · have hdigit := Nat.isDigit_of_mem_toDigits (by decide) (by decide) hc
    rw [isDigit_iff]
    simpa [Char.isDigit, UInt32.le_iff_toNat_le] using hdigit
  · rcases Nat.eq_zero_or_pos n with rfl | hpos
    · exact absurd hlong (by decide)
    · exact head?_toDigits_ne hpos

theorem IsCore.fits {core : List Char} {x y z : ℕ} (h : IsCore core x y z) :
    x < 2 ^ 64 ∧ y < 2 ^ 64 ∧ z < 2 ^ 64 := by
  cases h with
  | one ha => exact ⟨ha.fits, by decide, by decide⟩
  | two ha hb => exact ⟨ha.fits, hb.fits, by decide⟩
  | three ha hb hc => exact ⟨ha.fits, hb.fits, hc.fits⟩

/-- A row is written in one way. -/
theorem IsMarked.eq {mark : Char} {front : List Char} {ids : List Identifier}
    (h : IsMarked mark front ids) : front = if ids = [] then [] else mark :: Identifier.row ids := by
  cases h with
  | absent => rfl
  | present h => rw [if_neg h.nonempty]

/-- The text of a version that is spelled somehow is a spelling of it. -/
theorem IsSpelling.chars_isSpelling {cs : List Char} {v : Version} (h : IsSpelling cs v) :
    IsSpelling v.chars v := by
  obtain ⟨-, hcore, hsuffix⟩ := h
  obtain ⟨hmajor, hminor, hpatch⟩ := hcore.fits
  refine ⟨?_, .three (isNumber_number hmajor) (isNumber_number hminor) (isNumber_number hpatch), hsuffix⟩
  rcases hsuffix with ⟨hpre, -, hbuild⟩
  rw [chars, ← hpre.eq, ← hbuild.eq]
  simp

theorem isSpelling_chars {text : String} {v : Version} (h : parse? text = some v) :
    IsSpelling v.chars v := (parse?_eq_some_iff.1 h).chars_isSpelling

/-! ## Upgrades -/

/-- Texts that are read as the same version are upgraded alike. -/
theorem isUpgradable_congr {text text' : String} {v : Version} (h : parse? text = some v)
    (h' : parse? text' = some v) {other : String} (valid : (parse? other).isSome) :
    isUpgradable text other = isUpgradable text' other ∧
      isUpgradable other text = isUpgradable other text' := by
  obtain ⟨w, hw⟩ := Option.isSome_iff_exists.1 valid
  constructor
  · rw [isUpgradable_of_parse h hw, isUpgradable_of_parse h' hw]
  · rw [isUpgradable_of_parse hw h, isUpgradable_of_parse hw h']

/-- The text of a version is read as this version, with blanks around it and a `v` before it or not. No
upgrade from a valid version or to one can tell it from the text that the version was read from, or
any two texts that the version is read from. -/
theorem text_reads_back_and_upgrades_alike {text : String} {v : Version} (h : parse? text = some v) :
    (∀ before mark after, (∀ c ∈ before, isBlank c = true) → (∀ c ∈ after, isBlank c = true) →
      (mark = [] ∨ mark = ['v'] ∨ mark = ['V']) →
      parse? (String.ofList (before ++ (mark ++ (v.text.toList ++ after)))) = some v) ∧
    (∀ other, (parse? other).isSome →
      isUpgradable text other = isUpgradable v.text other ∧
      isUpgradable other text = isUpgradable other v.text) ∧
    ∀ text', parse? text' = some v → ∀ other, (parse? other).isSome →
      isUpgradable text other = isUpgradable text' other ∧
      isUpgradable other text = isUpgradable other text' := by
  have hchars := isSpelling_chars h
  have htext : v.text.toList = v.chars := String.toList_ofList
  have hcut : v.text.toList = [] ++ ([] ++ (v.chars ++ [])) := by simp [htext]
  have hcanonical : parse? v.text = some v :=
    parse?_of_isSpelling hcut (by simp) (by simp) (.inl rfl) hchars
  refine ⟨fun before mark after hbefore hafter hmark => ?_, fun other => isUpgradable_congr h hcanonical,
    fun text' h' other => isUpgradable_congr h h'⟩
  rw [htext]
  exact parse?_of_isSpelling String.toList_ofList hbefore hafter hmark hchars

/-- Two spellings and the text of a release candidate: the release is an upgrade of all three, or of none. -/
theorem text_reads_back_and_upgrades_alike_of_candidate :
    let candidate : Version :=
      { major := 1, minor := 2, patch := 0, pre := ["rc".toList, "1".toList], build := ["07".toList] }
    parse? " v1.2-rc.1+07" = some candidate ∧ parse? "1.2-rc.1+07" = some candidate ∧
    (parse? "V1.2").isSome ∧ candidate.text = "1.2.0-rc.1+07" ∧
    parse? (String.ofList (['\t'] ++ (['V'] ++ (candidate.text.toList ++ ['\n'])))) = some candidate ∧
    isUpgradable " v1.2-rc.1+07" "V1.2" = isUpgradable candidate.text "V1.2" ∧
    isUpgradable "V1.2" " v1.2-rc.1+07" = isUpgradable "V1.2" candidate.text ∧
    isUpgradable " v1.2-rc.1+07" "V1.2" = isUpgradable "1.2-rc.1+07" "V1.2" := by
  intro candidate
  have hspelled : parse? " v1.2-rc.1+07" = some candidate := by decide +kernel
  have hbare : parse? "1.2-rc.1+07" = some candidate := by decide +kernel
  have hrelease : (parse? "V1.2").isSome := by decide +kernel
  obtain ⟨hreads, halike, hspellings⟩ := text_reads_back_and_upgrades_alike hspelled
  refine ⟨hspelled, hbare, hrelease, by decide +kernel, hreads _ _ _ ?_ ?_ (.inr (.inr rfl)),
    (halike _ hrelease).1, (halike _ hrelease).2, (hspellings _ hbare _ hrelease).1⟩
  · exact List.forall_mem_singleton.2 (by decide)
  · exact List.forall_mem_singleton.2 (by decide)

end Version
end ClusterPackages
