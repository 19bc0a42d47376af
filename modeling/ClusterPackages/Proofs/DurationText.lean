import ClusterPackages.Duration
import ClusterPackages.Proofs.CanonicalText
import ClusterPackages.Proofs.Cutting

/-! The text of a duration is read back as the duration. Each unit is written as often as it fits into
what the larger ones leave, so the parts read before are never more than the whole, and no addition
or multiplication on the way leaves its word. -/

namespace ClusterPackages.Duration

open Text

/-! ## Adding up -/

theorem div_add_mul_add_mod (total seconds nanos s : ℕ) :
    (total / s + seconds) * s + (total % s + nanos) = total + seconds * s + nanos := by
  calc (total / s + seconds) * s + (total % s + nanos)
      = total / s * s + total % s + seconds * s + nanos := by ring
    _ = total + seconds * s + nanos := by rw [Nat.div_add_mod']

theorem ofWord?_eq {n : ℕ} (h : n < wordLimit) : ofWord? n = some n := if_pos h

theorem plus?_eq {total seconds nanos : ℕ} (hword : total % nanosPerSecond + nanos < wordLimit)
    (hsum : total + seconds * nanosPerSecond + nanos < limit) :
    plus? total seconds nanos = some (total + seconds * nanosPerSecond + nanos) := by
  rw [plus?, ofWord?_eq hword, Option.bind_eq_bind, Option.bind_some, div_add_mul_add_mod]
  exact if_pos hsum

theorem two_seconds_lt : nanosPerSecond + nanosPerSecond < wordLimit := by decide

theorem nanos_of_not_isFine {u : TimeUnit} (h : u.isFine = false) :
    u.nanos / nanosPerSecond * nanosPerSecond = u.nanos := by
  cases u <;> first
    | decide
    | exact absurd h (by decide)

/-- A number of units is added if the sum fits, and fine units are fewer than make a second. -/
theorem addWhole?_eq {total n : ℕ} {u : TimeUnit} (hfine : u.isFine = true → n * u.nanos < nanosPerSecond)
    (hsum : total + n * u.nanos < limit) : addWhole? total n u = some (total + n * u.nanos) := by
  have hrest : total % nanosPerSecond < nanosPerSecond := Nat.mod_lt total (by decide)
  cases h : u.isFine with
  | true =>
    have hword : n * u.nanos < wordLimit :=
      (hfine h).trans (lt_of_le_of_lt (Nat.le_add_left _ _) two_seconds_lt)
    rw [addWhole?, if_pos h, ofWord?_eq hword, Option.bind_eq_bind, Option.bind_some,
      plus?_eq ((Nat.add_lt_add hrest (hfine h)).trans two_seconds_lt), Nat.zero_mul, Nat.add_zero]
    rwa [Nat.zero_mul, Nat.add_zero]
  | false =>
    have hmul : n * (u.nanos / nanosPerSecond) * nanosPerSecond = n * u.nanos := by
      rw [Nat.mul_assoc, nanos_of_not_isFine h]
    have hword : n * (u.nanos / nanosPerSecond) < wordLimit := by
      refine Nat.lt_of_mul_lt_mul_right (a := nanosPerSecond) ?_
      rw [hmul]
      exact lt_of_le_of_lt (Nat.le_add_left _ _) hsum
    rw [addWhole?, if_neg (by simp [h]), ofWord?_eq hword, Option.bind_eq_bind, Option.bind_some,
      plus?_eq, hmul, Nat.add_zero]
    · exact hrest.trans (lt_of_le_of_lt (Nat.le_add_left _ _) two_seconds_lt)
    · rwa [hmul, Nat.add_zero]

/-! ## One part -/

theorem le_foldl_decimal (cs : List Char) (n : ℕ) :
    n ≤ cs.foldl (fun n c => 10 * n + digitValue c) n := by
  induction cs generalizing n with
  | nil => rfl
  | cons c cs ih => exact le_trans (by omega) (ih (10 * n + digitValue c))

theorem wholePart_append {ds rest : List Char} (hds : ∀ c ∈ ds, isDigit c = true)
    (hrest : StopsAt (fun c => isDigit c || isBlank c) rest) (n : ℕ)
    (hfits : ds.foldl (fun n c => 10 * n + digitValue c) n < wordLimit) :
    wholePart n (ds ++ rest) = some (ds.foldl (fun n c => 10 * n + digitValue c) n, rest) := by
  induction ds generalizing n with
  | nil =>
    cases rest with
    | nil => rfl
    | cons c rest =>
      obtain ⟨hdigit, hblank⟩ := Bool.or_eq_false_iff.1 (hrest c rfl)
      rw [List.nil_append, wholePart, hdigit, hblank]
      rfl
  | cons c ds ih =>
    obtain ⟨hc, hds⟩ := List.forall_mem_cons.1 hds
    have hfirst : 10 * n + digitValue c < wordLimit :=
      lt_of_le_of_lt (le_foldl_decimal ds (10 * n + digitValue c)) hfits
    rw [List.cons_append, wholePart, if_pos hc, ofWord?_eq hfirst, Option.bind_eq_bind, Option.bind_some]
    exact ih hds _ hfits

theorem isAsciiLetter_iff (c : Char) : isAsciiLetter c = true ↔
    (97 ≤ c.toNat ∧ c.toNat ≤ 122) ∨ (65 ≤ c.toNat ∧ c.toNat ≤ 90) := by
  simp only [isAsciiLetter, Bool.or_eq_true, Bool.and_eq_true, decide_eq_true_eq]
  exact Iff.rfl

theorem toNat_of_isUnitChar {c : Char} (h : isUnitChar c = true) :
    (97 ≤ c.toNat ∧ c.toNat ≤ 122) ∨ (65 ≤ c.toNat ∧ c.toNat ≤ 90) ∨ c.toNat = 181 := by
  rcases Bool.or_eq_true_iff.1 h with h | h
  · rcases (isAsciiLetter_iff c).1 h with h | h
    · exact .inl h
    · exact .inr (.inl h)
  · rw [beq_iff_eq] at h
    subst h
    exact .inr (.inr rfl)

theorem not_isDigit_of_isUnitChar {c : Char} (h : isUnitChar c = true) :
    (isDigit c || isBlank c) = false := by
  have hc := toNat_of_isUnitChar h
  have hdigit : isDigit c = false := by
    rw [Bool.eq_false_iff, ne_eq, isDigit_iff]
    omega
  have hblank : isBlank c = false := by
    simp only [isBlank, Bool.or_eq_false_iff, Bool.and_eq_false_iff, decide_eq_false_iff_not,
      beq_eq_false_iff_ne]
    omega
  rw [hdigit, hblank, Bool.or_self]

/-- A number that fits a word and a name of a unit, from after the first digit on. -/
theorem readSpan_append {c : Char} {ds name rest : List Char} {n : ℕ} {u : TimeUnit}
    (hnumber : Version.IsNumber (c :: ds) n) (hname : TimeUnit.ofName? name = some u)
    (hunit : ∀ x ∈ name, isUnitChar x = true) (hne : name ≠ []) (hrest : StopsAt isUnitChar rest)
    (total : ℕ) :
    readSpan total (digitValue c) (ds ++ (name ++ rest)) =
      (addWhole? total n u).map fun total => (total, rest) := by
  obtain ⟨x, xs, rfl⟩ := List.exists_cons_of_ne_nil hne
  have hx := hunit x List.mem_cons_self
  have hvalue : ds.foldl (fun n c => 10 * n + digitValue c) (digitValue c) = n := by
    have := hnumber.value
    simpa [decimal] using this
  have hstop : StopsAt (fun c => isDigit c || isBlank c) (x :: xs ++ rest) :=
    stopsAt_cons (not_isDigit_of_isUnitChar hx)
  have hwhole := wholePart_append (fun d hd => hnumber.digits d (List.mem_cons_of_mem _ hd)) hstop
    (digitValue c) (hvalue ▸ hnumber.fits)
  rw [readSpan, hwhole, hvalue]
  have htake := takeWhile_cut hunit hrest
  have hdrop := dropWhile_cut hunit hrest
  have hpoint : x ≠ '.' := fun heq => absurd (heq ▸ hx) (by decide)
  rw [Option.bind_eq_bind, Option.bind_some]
  dsimp only
  split
  · rename_i heq
    exact absurd (List.cons.inj heq).1 hpoint
  · rw [htake, hname, hdrop, Option.bind_eq_bind, Option.bind_some]
    cases addWhole? total n u <;> rfl

/-! ## All parts -/

theorem written_names : ∀ w ∈ writtenUnits, ∀ name ∈ [w.2.1.toList, w.2.2.toList],
    TimeUnit.ofName? name = some w.1 ∧ name ≠ [] ∧ ∀ x ∈ name, isUnitChar x = true := by
  have hall : ∀ w ∈ writtenUnits, ∀ name ∈ [w.2.1.toList, w.2.2.toList],
      TimeUnit.ofName? name = some w.1 ∧ name ≠ [] ∧ name.all isUnitChar = true := by decide
  exact fun w hw name hname => (hall w hw name hname).imp_right (And.imp_right List.all_eq_true.1)

/-- The units that are left measure what is below the bound: fine ones below a second, and the last
one leaves nothing. -/
def Measures : (bound : ℕ) → List (TimeUnit × String × String) → Prop
  | bound, [] => bound = 1
  | bound, (u, _) :: rest => (u.isFine = true → bound ≤ nanosPerSecond) ∧ Measures u.nanos rest

theorem measures_writtenUnits : Measures limit writtenUnits := by
  simp only [writtenUnits, Measures]
  decide

/-- The parts with a blank before each. -/
def spaced (units : List (TimeUnit × String × String)) (n : ℕ) : List Char :=
  (parts units n).flatMap fun p => ' ' :: p.toList

theorem stopsAt_spaced (units : List (TimeUnit × String × String)) (n : ℕ) :
    StopsAt isUnitChar (spaced units n) := by
  rw [spaced]
  cases parts units n with
  | nil => exact stopsAt_nil
  | cons p ps => exact stopsAt_cons (by decide)

theorem spaced_cons (u : TimeUnit) (one many : String) (units : List (TimeUnit × String × String))
    (n : ℕ) : spaced ((u, one, many) :: units) n =
      if n / u.nanos = 0 then spaced units (n % u.nanos)
      else ' ' :: ((toString (n / u.nanos)).toList ++
        ((if n / u.nanos = 1 then one else many).toList ++ spaced units (n % u.nanos))) := by
  rw [spaced, parts]
  split_ifs <;> simp [spaced]

theorem length_parts_cons (u : TimeUnit) (one many : String) (units : List (TimeUnit × String × String))
    (n : ℕ) : (parts ((u, one, many) :: units) n).length =
      (if n / u.nanos = 0 then 0 else 1) + (parts units (n % u.nanos)).length := by
  rw [parts]
  split_ifs <;> simp [Nat.add_comm]

theorem isNumber_toString {n : ℕ} (h : n < wordLimit) : Version.IsNumber (toString n).toList n :=
  Version.isNumber_number h

/-- A unit is never written more often than a word can say. -/
theorem count_lt {u : TimeUnit} {bound n : ℕ} (hfine : u.isFine = true → bound ≤ nanosPerSecond)
    (hn : n < bound) (hlimit : n < limit) : n / u.nanos < wordLimit := by
  cases h : u.isFine with
  | true =>
    calc n / u.nanos ≤ n := Nat.div_le_self n u.nanos
      _ < nanosPerSecond := hn.trans_le (hfine h)
      _ < wordLimit := lt_of_le_of_lt (Nat.le_add_left _ _) two_seconds_lt
  | false =>
    have hcoarse : nanosPerSecond ≤ u.nanos := not_lt.1 (of_decide_eq_false h)
    refine Nat.lt_of_mul_lt_mul_right (a := nanosPerSecond) ?_
    calc n / u.nanos * nanosPerSecond ≤ n / u.nanos * u.nanos := Nat.mul_le_mul_left _ hcoarse
      _ ≤ n := Nat.div_mul_le_self n u.nanos
      _ < limit := hlimit

/-- A blank and a number with a unit, in front of more. -/
theorem readSpans_part {n total : ℕ} (hword : n < wordLimit) {u : TimeUnit} {name rest : List Char}
    (hname : TimeUnit.ofName? name = some u) (hunit : ∀ x ∈ name, isUnitChar x = true)
    (hne : name ≠ []) (hrest : StopsAt isUnitChar rest)
    (hadd : addWhole? total n u = some (total + n * u.nanos)) (fuel : ℕ) :
    readSpans (fuel + 1) total (' ' :: ((toString n).toList ++ (name ++ rest))) =
      readSpans fuel (total + n * u.nanos) rest := by
  have hnumber := isNumber_toString hword
  obtain ⟨c, ds, hdigits⟩ := List.exists_cons_of_ne_nil hnumber.nonempty
  rw [hdigits] at hnumber ⊢
  have hc : isDigit c = true := hnumber.digits c List.mem_cons_self
  have hblank : isBlank c = false := not_isBlank_of_printable (by
    have := (isDigit_iff c).1 hc
    omega)
  have hdrop : (' ' :: (c :: ds ++ (name ++ rest))).dropWhile isBlank = c :: (ds ++ (name ++ rest)) := by
    rw [List.dropWhile_cons_of_pos (by decide), List.cons_append, List.dropWhile_cons_of_neg (by simp [hblank])]
  rw [readSpans, hdrop]
  dsimp only
  rw [if_pos hc, readSpan_append hnumber hname hunit hne hrest, hadd, Option.map_some,
    Option.bind_eq_bind, Option.bind_some]

theorem readSpans_spaced {units : List (TimeUnit × String × String)} (hunits : units ⊆ writtenUnits)
    {bound n : ℕ} (hmeasures : Measures bound units) (hn : n < bound) {total : ℕ}
    (hsum : total + n < limit) {fuel : ℕ} (hfuel : (parts units n).length < fuel) :
    readSpans fuel total (spaced units n) = some (total + n) := by
  induction units generalizing bound n total fuel with
  | nil =>
    obtain rfl : bound = 1 := hmeasures
    obtain rfl : n = 0 := by omega
    obtain ⟨fuel, rfl⟩ : ∃ k, fuel = k + 1 := ⟨fuel - 1, by omega⟩
    rfl
  | cons w units ih =>
    obtain ⟨u, one, many⟩ := w
    obtain ⟨hw, hunits⟩ := List.cons_subset.1 hunits
    obtain ⟨hfine, hrest⟩ := hmeasures
    have hmod : n % u.nanos < u.nanos := Nat.mod_lt n (by cases u <;> decide)
    have hdiv : n / u.nanos * u.nanos + n % u.nanos = n := Nat.div_add_mod' n u.nanos
    rw [length_parts_cons] at hfuel
    rw [spaced_cons]
    by_cases hcount : n / u.nanos = 0
    · rw [if_pos hcount] at hfuel ⊢
      rw [hcount, Nat.zero_mul, Nat.zero_add] at hdiv
      rw [ih hunits hrest hmod (by omega) (by omega), hdiv]
    · rw [if_neg hcount] at hfuel ⊢
      obtain ⟨fuel, rfl⟩ : ∃ k, fuel = k + 1 := ⟨fuel - 1, by omega⟩
      obtain ⟨hname, hne, hunit⟩ := written_names _ hw
        (if n / u.nanos = 1 then one else many).toList (by split_ifs <;> simp)
      have hname : TimeUnit.ofName? _ = some u := hname
      have hword := count_lt hfine hn (by omega)
      have hadd : addWhole? total (n / u.nanos) u = some (total + n / u.nanos * u.nanos) :=
        addWhole?_eq (fun h => by have := hfine h; omega) (by omega)
      rw [readSpans_part hword hname hunit hne (stopsAt_spaced units _) hadd,
        ih hunits hrest hmod (by omega) (by omega), Nat.add_assoc, hdiv]

/-! ## The text -/

/-- A number with a unit, as one part of a text. -/
def IsPart (part : List Char) : Prop :=
  ∃ count name, Version.IsNumber (toString count).toList count ∧
    (∃ w ∈ writtenUnits, name ∈ [w.2.1.toList, w.2.2.toList]) ∧ part = (toString count).toList ++ name

theorem isPart_of_mem_parts {units : List (TimeUnit × String × String)} (hunits : units ⊆ writtenUnits)
    {bound n : ℕ} (hmeasures : Measures bound units) (hn : n < bound) (hlimit : n < limit) {p : String}
    (hp : p ∈ parts units n) : IsPart p.toList := by
  induction units generalizing bound n with
  | nil => cases hp
  | cons w units ih =>
    obtain ⟨u, one, many⟩ := w
    obtain ⟨hw, hunits⟩ := List.cons_subset.1 hunits
    obtain ⟨hfine, hrest⟩ := hmeasures
    have hmod : n % u.nanos < u.nanos := Nat.mod_lt n (by cases u <;> decide)
    have hmore := ih hunits hrest hmod (lt_of_le_of_lt (Nat.mod_le _ _) hlimit)
    rw [parts] at hp
    split_ifs at hp with hcount hone
    · exact hmore hp
    · rcases List.mem_cons.1 hp with rfl | hp
      · exact ⟨n / u.nanos, one.toList, isNumber_toString (count_lt hfine hn hlimit),
          ⟨_, hw, by simp⟩, String.toList_append⟩
      · exact hmore hp
    · rcases List.mem_cons.1 hp with rfl | hp
      · exact ⟨n / u.nanos, many.toList, isNumber_toString (count_lt hfine hn hlimit),
          ⟨_, hw, by simp⟩, String.toList_append⟩
      · exact hmore hp

theorem IsPart.exists_cons {part : List Char} (h : IsPart part) :
    ∃ c rest, part = c :: rest ∧ isDigit c = true ∧ rest ≠ [] := by
  obtain ⟨count, name, hnumber, ⟨w, hw, hmem⟩, rfl⟩ := h
  obtain ⟨c, ds, hdigits⟩ := List.exists_cons_of_ne_nil hnumber.nonempty
  rw [hdigits] at hnumber ⊢
  exact ⟨c, ds ++ name, rfl, hnumber.digits c List.mem_cons_self,
    List.append_ne_nil_of_right_ne_nil ds (written_names w hw name hmem).2.1⟩

theorem toList_intercalate_cons (p : String) (ps : List String) :
    (" ".intercalate (p :: ps)).toList = p.toList ++ ps.flatMap fun q => ' ' :: q.toList := by
  rw [String.toList_intercalate]
  induction ps generalizing p with
  | nil => simp
  | cons q ps ih =>
    have hq := ih q
    rw [List.map_cons] at hq
    rw [List.map_cons, List.map_cons, List.intercalate_cons_cons, hq]
    simp

theorem parts_ne_nil {n : ℕ} (h : n < limit) (hpos : n ≠ 0) : parts writtenUnits n ≠ [] := by
  intro hnil
  have hread : readSpans 1 0 (spaced writtenUnits n) = some (0 + n) :=
    readSpans_spaced (List.Subset.refl _) measures_writtenUnits h (by omega) (by simp [hnil])
  rw [spaced, hnil, Nat.zero_add] at hread
  exact hpos (Option.some.inj hread).symm

/-- The text of a duration is a row of parts. -/
theorem exists_parts_text (d : Duration) (h : d.nanos < limit) :
    ∃ (part : List Char) (more : List (List Char)),
      d.text.toList = part ++ (more.flatMap fun q => ' ' :: q) ∧ IsPart part ∧ ∀ q ∈ more, IsPart q := by
  rw [text]
  split_ifs with hzero
  · refine ⟨"0s".toList, [], by simp, ?_, by simp⟩
    exact ⟨0, "s".toList, isNumber_toString (by decide), ⟨(.second, "s", "s"), by decide, by simp⟩, rfl⟩
  · obtain ⟨p, ps, hparts⟩ := List.exists_cons_of_ne_nil (parts_ne_nil h hzero)
    have hall : ∀ q ∈ p :: ps, IsPart q.toList := fun q hq =>
      isPart_of_mem_parts (List.Subset.refl _) measures_writtenUnits h h (hparts ▸ hq)
    obtain ⟨hp, hps⟩ := List.forall_mem_cons.1 hall
    refine ⟨p.toList, ps.map String.toList, ?_, hp, List.forall_mem_map.2 hps⟩
    rw [hparts, toList_intercalate_cons, List.flatMap_map]

theorem IsPart.newline_notMem {part : List Char} (h : IsPart part) : '\n' ∉ part := by
  obtain ⟨count, name, hnumber, ⟨w, hw, hmem⟩, rfl⟩ := h
  intro hnewline
  rcases List.mem_append.1 hnewline with h | h
  · exact absurd (hnumber.digits _ h) (by decide)
  · exact absurd ((written_names w hw name hmem).2.2 _ h) (by decide)

/-- The text of a duration is one line. -/
theorem newline_notMem_text (d : Duration) (h : d.nanos < limit) : '\n' ∉ d.text.toList := by
  obtain ⟨part, more, htext, hpart, hmore⟩ := exists_parts_text d h
  rw [htext]
  intro hnewline
  rcases List.mem_append.1 hnewline with h | h
  · exact hpart.newline_notMem h
  · obtain ⟨q, hq, h⟩ := List.mem_flatMap.1 h
    rcases List.mem_cons.1 h with h | h
    · cases h
    · exact (hmore q hq).newline_notMem h

theorem readSpans_blank (fuel total : ℕ) (cs : List Char) :
    readSpans fuel total (' ' :: cs) = readSpans fuel total cs := by
  cases fuel with
  | zero => rfl
  | succ fuel => rw [readSpans, readSpans, List.dropWhile_cons_of_pos (by decide)]

theorem length_le_length_blanks (ps : List String) :
    ps.length ≤ (ps.flatMap fun q => ' ' :: q.toList).length := by
  induction ps with
  | nil => exact Nat.le_refl 0
  | cons q ps ih =>
    rw [List.flatMap_cons, List.length_append, List.length_cons, List.length_cons]
    omega

/-- No duration is too long for its text to be read. -/
theorem ofText?_text (d : Duration) (h : d.nanos < limit) : ofText? d.text = some d := by
  by_cases hzero : d.nanos = 0
  · obtain rfl : d = ⟨0⟩ := congrArg Duration.mk hzero
    decide
  · obtain ⟨p, ps, hparts⟩ := List.exists_cons_of_ne_nil (parts_ne_nil h hzero)
    have htext : d.text.toList = p.toList ++ ps.flatMap fun q => ' ' :: q.toList := by
      rw [text, if_neg hzero, hparts, toList_intercalate_cons]
    have hspaced : spaced writtenUnits d.nanos = ' ' :: d.text.toList := by
      rw [spaced, hparts, htext]
      rfl
    obtain ⟨c, rest, hp, hc, hrest⟩ := IsPart.exists_cons
      (isPart_of_mem_parts (List.Subset.refl _) measures_writtenUnits h h (hparts ▸ List.mem_cons_self))
    have hlength := length_le_length_blanks ps
    have hfuel : (parts writtenUnits d.nanos).length < d.text.toList.length + 1 := by
      rw [hparts, htext, hp, List.length_append, List.length_cons, List.length_cons]
      omega
    have hread : readSpans (d.text.toList.length + 1) 0 (spaced writtenUnits d.nanos) = some (0 + d.nanos) :=
      readSpans_spaced (List.Subset.refl _) measures_writtenUnits h (by omega) hfuel
    rw [hspaced, readSpans_blank, Nat.zero_add] at hread
    have hne : d.text.toList ≠ ['0'] := by
      rw [htext, hp]
      simp [hrest]
    have hblank : d.text.toList.all isBlank = false := by
      have hcblank : isBlank c = false := not_isBlank_of_printable (by
        have := (isDigit_iff c).1 hc
        omega)
      simp [htext, hp, hcblank]
    rw [ofText?, if_neg hne, if_neg (by simp [hblank]), hread]
    rfl

end ClusterPackages.Duration
