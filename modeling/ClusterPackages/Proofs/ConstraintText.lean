import ClusterPackages.Proofs.CanonicalText
import ClusterPackages.Proofs.ComparatorGrammar
import ClusterPackages.Version.Constraint

/-! What constraints say. In a constraint of one comparator, blanks around its operator and its numbers and
one `v` before them tell nothing apart; and a comparator that was read is read back from what it is
written as (`parseConstraint_text`). In a constraint of many each part between commas is a constraint of
its own (`forall₂_of_parseConstraint`). -/

namespace ClusterPackages

open Text Version

/-! ## One comparator alone -/

theorem Comparator.IsSpelling.begins {cs : List Char} {c : Comparator} (h : c.IsSpelling cs) :
    ∃ d rest, cs = d :: rest ∧ ¬ IsWildcard d := by
  obtain ⟨rfl, hsign, hspaces, hbody⟩ := h
  rename_i sign spaces body written
  cases hsign with
  | absent =>
    cases spaces with
    | nil =>
      obtain ⟨hmajor, -⟩ := hbody
      obtain ⟨d, ds, rfl, hd⟩ := hmajor.begins
      exact ⟨d, _, rfl, not_isWildcard_of_isDigit hd⟩
    | cons s ss =>
      refine ⟨s, _, rfl, ?_⟩
      rw [beq_iff_eq.1 (hspaces s List.mem_cons_self)]
      simp [IsWildcard]
  | @written op hop =>
    cases op with
    | wildcard => exact absurd rfl hop
    | _ => exact ⟨_, _, rfl, by simp [IsWildcard]⟩

/-- Spaces around a comparator tell nothing apart. -/
theorem readStrict_of_isSpelling {before cs after : List Char} {c : Comparator} (h : c.IsSpelling cs)
    (trimmed : StopsAt (· == ' ') cs) (hbefore : ∀ s ∈ before, (s == ' ') = true)
    (hafter : ∀ s ∈ after, (s == ' ') = true) :
    Requirement.readStrict (before ++ (cs ++ after)) = .ok ⟨[c]⟩ := by
  obtain ⟨d, rest, rfl, hd⟩ := h.begins
  have htrim : trimSpaces (before ++ (d :: rest ++ after)) = d :: rest ++ after :=
    dropWhile_cut hbefore (stopsAt_append_of_ne_nil trimmed (List.cons_ne_nil d rest))
  have hend : trimSpaces after = [] := List.dropWhile_eq_nil_iff.2 hafter
  have stops : StopsAt isVersionChar after := fun s hs => by
    rw [beq_iff_eq.1 (hafter s (List.mem_of_mem_head? hs))]
    decide
  obtain ⟨last, hread⟩ := readComparator_append h stops
  rw [hend] at hread
  have hwild : readWildcard (d :: rest ++ after) = none := readWildcard_eq_none hd
  unfold Requirement.readStrict
  simp only [htrim, hwild, comparatorLimit, readComparators, hread]
  rfl

/-! ## Characters -/

/-- What stands behind an operator, apart from blanks. -/
def isBodyChar (c : Char) : Bool := isVersionChar c || c == '*'

theorem isBodyChar_of_isVersionChar {c : Char} (h : isVersionChar c = true) : isBodyChar c = true := by
  simp [isBodyChar, h]

theorem not_isBlank_of_isBodyChar {c : Char} (h : isBodyChar c = true) : isBlank c = false := by
  rcases Bool.or_eq_true_iff.1 h with h | h
  · exact not_isBlank_of_isVersionChar h
  · rw [beq_iff_eq.1 h]
    decide

theorem IsPlace.forall_isBodyChar {front : List Char} {place : Place} (h : IsPlace front place) :
    ∀ c ∈ front, isBodyChar c = true := by
  cases h with
  | absent => exact List.forall_mem_nil _
  | any hs =>
    refine List.forall_mem_cons.2 ⟨rfl, List.forall_mem_singleton.2 ?_⟩
    rcases hs with rfl | rfl | rfl <;> rfl
  | given hb =>
    exact List.forall_mem_cons.2 ⟨rfl, fun c hc =>
      isBodyChar_of_isVersionChar (isVersionChar_of_isDigit (hb.digits c hc))⟩

theorem IsEnding.forall_isBodyChar {place : Place} {suffix : List Char} {pre : List Identifier}
    (h : IsEnding place suffix pre) : ∀ c ∈ suffix, isBodyChar c = true := by
  cases h with
  | bare h => exact List.forall_mem_nil _
  | full h =>
    obtain ⟨hpre, -, hbuild⟩ := h
    exact List.forall_mem_append.2
      ⟨fun c hc => isBodyChar_of_isVersionChar (hpre.forall_isVersionChar rfl c hc),
        fun c hc => isBodyChar_of_isVersionChar (hbuild.forall_isVersionChar rfl c hc)⟩

theorem IsBody.forall_isBodyChar {body : List Char} {written : Option Operator} {c : Comparator}
    (h : IsBody body written c) : ∀ d ∈ body, isBodyChar d = true := by
  obtain ⟨hmajor, hminor, hpatch, -, ending⟩ := h
  refine List.forall_mem_append.2 ⟨fun d hd => ?_, List.forall_mem_append.2
    ⟨hminor.forall_isBodyChar, List.forall_mem_append.2
      ⟨hpatch.forall_isBodyChar, ending.forall_isBodyChar⟩⟩⟩
  exact isBodyChar_of_isVersionChar (isVersionChar_of_isDigit (hmajor.digits d hd))

theorem IsBody.begins {body : List Char} {written : Option Operator} {c : Comparator}
    (h : IsBody body written c) : ∃ d, body.head? = some d ∧ isDigit d = true := by
  obtain ⟨hmajor, -⟩ := h
  obtain ⟨d, ds, rfl, hd⟩ := hmajor.begins
  exact ⟨d, rfl, hd⟩

/-- Blanks and the signs of operators are all that may stand before a version. -/
theorem isOperatorChar_of_isBlank {c : Char} (h : isBlank c = true) : isOperatorChar c = true := by
  have hle (a b : Char) : a ≤ b ↔ a.toNat ≤ b.toNat := Iff.rfl
  by_contra hnot
  have hprintable : 33 ≤ c.toNat ∧ c.toNat ≤ 126 := by
    simp only [isOperatorChar, isDigit, isAsciiLetter, Bool.not_eq_true, Bool.not_eq_false', hle,
      Bool.or_eq_true, Bool.and_eq_true, decide_eq_true_eq, beq_iff_eq, Char.reduceToNat] at hnot
    rcases hnot with (hnot | hnot | hnot) | rfl
    · omega
    · omega
    · omega
    · decide
  rw [not_isBlank_of_printable hprintable] at h
  cases h

theorem isBlank_of_spaces {cs : List Char} (h : ∀ s ∈ cs, (s == ' ') = true) :
    ∀ s ∈ cs, isBlank s = true := fun s hs => by
  rw [beq_iff_eq.1 (h s hs)]
  decide

theorem comma_notMem_of_isBlank {cs : List Char} (h : ∀ d ∈ cs, isBlank d = true) : ',' ∉ cs :=
  notMem_of_forall h (by decide)

theorem forall_mem_symbol (op : Operator) :
    ∀ c ∈ op.symbol, isOperatorChar c = true ∧ isBlank c = false ∧ c ≠ ',' := by
  have hall : op.symbol.all (fun c => isOperatorChar c && (!isBlank c && c != ',')) = true := by
    cases op <;> decide
  simpa using hall

theorem IsOperator.forall_mem {sign : List Char} {written : Option Operator} (h : IsOperator sign written) :
    ∀ c ∈ sign, isOperatorChar c = true ∧ isBlank c = false ∧ c ≠ ',' := by
  cases h with
  | absent => exact List.forall_mem_nil _
  | written h => exact forall_mem_symbol _

theorem IsOperator.comma_notMem {sign : List Char} {written : Option Operator}
    (h : IsOperator sign written) : ',' ∉ sign := fun hmem => (h.forall_mem ',' hmem).2.2 rfl

theorem IsBody.comma_notMem {body : List Char} {written : Option Operator} {c : Comparator}
    (h : IsBody body written c) : ',' ∉ body := fun hmem =>
  absurd (h.forall_isBodyChar ',' hmem) (by decide)

/-! ## Lenient spellings -/

/-- How a constraint of one comparator may be spelled: with blanks around its operator and its numbers,
and with a `v` before them. -/
inductive Comparator.IsLenientSpelling (cs : List Char) (c : Comparator) : Prop
  | mk {before sign between mark body after : List Char} {written : Option Operator}
      (text : cs = before ++ (sign ++ (between ++ (mark ++ (body ++ after)))))
      (hbefore : ∀ d ∈ before, isBlank d = true) (hsign : IsOperator sign written)
      (hbetween : ∀ d ∈ between, isBlank d = true) (hmark : IsOptionalV mark)
      (hbody : IsBody body written c) (hafter : ∀ d ∈ after, isBlank d = true)

theorem Version.IsOptionalV.forall_mem {mark : List Char} (h : IsOptionalV mark) :
    ∀ c ∈ mark, isVersionChar c = true ∧ isOperatorChar c = false := by
  rcases h with rfl | rfl | rfl
  · exact List.forall_mem_nil _
  · exact List.forall_mem_singleton.2 (by decide)
  · exact List.forall_mem_singleton.2 (by decide)

/-- The text of a version, or of a wildcard alone: it begins with a digit or a wildcard, and ends with no
blank. -/
structure IsVersionText (version : List Char) : Prop where
  begins : ∃ d, version.head? = some d ∧ (isDigit d = true ∨ IsWildcard d)
  ends : StopsAt isBlank version.reverse

theorem IsBody.isVersionText {body : List Char} {written : Option Operator} {c : Comparator}
    (h : IsBody body written c) : IsVersionText body := by
  obtain ⟨d, hbegins, hd⟩ := h.begins
  exact ⟨⟨d, hbegins, .inl hd⟩, fun c hc =>
    not_isBlank_of_isBodyChar (h.forall_isBodyChar c (List.mem_reverse.1 (List.mem_of_mem_head? hc)))⟩

/-- A version begins with none of the characters that are dropped before it. -/
theorem IsVersionText.begins_behind {version : List Char} (h : IsVersionText version) :
    ∃ d, version.head? = some d ∧ isOperatorChar d = false ∧ isBlank d = false ∧
      ¬ (d = 'v' ∨ d = 'V') := by
  obtain ⟨d, hbegins, hd | rfl | rfl | rfl⟩ := h.begins
  · refine ⟨d, hbegins, by simp [isOperatorChar, hd],
      not_isBlank_of_isVersionChar (isVersionChar_of_isDigit hd), ?_⟩
    rintro (rfl | rfl)
    · exact absurd hd (by decide)
    · exact absurd hd (by decide)
  · exact ⟨_, hbegins, by decide⟩
  · exact ⟨_, hbegins, by decide⟩
  · exact ⟨_, hbegins, by decide⟩

/-- A text that is trimmed to what stands before a version, a mark and the version is cut there. -/
theorem normalizeComparator_of_trim {cs front mark version : List Char}
    (htrim : trim cs = front ++ (mark ++ version)) (hfront : ∀ d ∈ front, isOperatorChar d = true)
    (hmark : IsOptionalV mark) (hversion : IsVersionText version) :
    normalizeComparator cs = trim front ++ version := by
  obtain ⟨d, hbegins, hd, -, hv⟩ := hversion.begins_behind
  have stops : StopsAt isOperatorChar (mark ++ version) := by
    refine stopsAt_append (fun c hc => (hmark.forall_mem c (List.mem_of_mem_head? hc)).2) ?_
    intro c hc
    obtain rfl := Option.some.inj (hbegins.symm.trans hc)
    exact hd
  unfold normalizeComparator
  simp only [htrim]
  rw [takeWhile_cut hfront stops, dropWhile_cut hfront stops, dropV_append_of_begins hmark hbegins hv]

/-- Normalizing leaves the operator and the version. -/
theorem normalizeComparator_append {before sign between mark version after : List Char}
    {written : Option Operator} (hbefore : ∀ d ∈ before, isBlank d = true)
    (hsign : IsOperator sign written) (hbetween : ∀ d ∈ between, isBlank d = true)
    (hmark : IsOptionalV mark) (hversion : IsVersionText version)
    (hafter : ∀ d ∈ after, isBlank d = true) :
    normalizeComparator (before ++ (sign ++ (between ++ (mark ++ (version ++ after))))) =
      sign ++ version := by
  obtain ⟨d, hbegins, -, hd, -⟩ := hversion.begins_behind
  have hversion' : version ≠ [] := by
    rintro rfl
    cases hbegins
  have hne : mark ++ version ≠ [] := fun hnil => hversion' (List.append_eq_nil_iff.1 hnil).2
  have begins : StopsAt isBlank (mark ++ version) := by
    refine stopsAt_append (fun c hc =>
      not_isBlank_of_isVersionChar (hmark.forall_mem c (List.mem_of_mem_head? hc)).1) ?_
    intro c hc
    obtain rfl := Option.some.inj (hbegins.symm.trans hc)
    exact hd
  have ends : StopsAt isBlank (mark ++ version).reverse := by
    rw [List.reverse_append]
    exact stopsAt_append_of_ne_nil hversion.ends (mt List.reverse_eq_nil_iff.1 hversion')
  cases hsign with
  | absent =>
    -- what stands before the version is one row of blanks
    have htrim : trim (before ++ ([] ++ (between ++ (mark ++ (version ++ after))))) =
        [] ++ (mark ++ version) := by
      have hblank := List.forall_mem_append.2 ⟨hbefore, hbetween⟩
      simpa using trim_append hblank hafter hne begins ends
    exact normalizeComparator_of_trim htrim (List.forall_mem_nil _) hmark hversion
  | @written op hop =>
    have hsymbol := forall_mem_symbol op
    have hsign : op.symbol ≠ [] := by
      cases op with
      | wildcard => exact absurd rfl hop
      | _ => exact List.cons_ne_nil _ _
    have hfirst : StopsAt isBlank op.symbol := fun c hc => (hsymbol c (List.mem_of_mem_head? hc)).2.1
    have htrim : trim (before ++ (op.symbol ++ (between ++ (mark ++ (version ++ after))))) =
        (op.symbol ++ between) ++ (mark ++ version) := by
      have hlast : StopsAt isBlank ((op.symbol ++ between) ++ (mark ++ version)).reverse := by
        rw [List.reverse_append]
        exact stopsAt_append_of_ne_nil ends (mt List.reverse_eq_nil_iff.1 hne)
      have hnone : (op.symbol ++ between) ++ (mark ++ version) ≠ [] := by simp [hsign]
      rw [List.append_assoc] at hlast hnone ⊢
      simpa using trim_append hbefore hafter hnone (stopsAt_append_of_ne_nil hfirst hsign) hlast
    have hfront : ∀ d ∈ op.symbol ++ between, isOperatorChar d = true := List.forall_mem_append.2
      ⟨fun d hd => (hsymbol d hd).1, fun d hd => isOperatorChar_of_isBlank (hbetween d hd)⟩
    have hoperator : trim ([] ++ (op.symbol ++ between)) = op.symbol :=
      trim_append (List.forall_mem_nil _) hbetween hsign hfirst
        fun c hc => (hsymbol c (List.mem_reverse.1 (List.mem_of_mem_head? hc))).2.1
    rw [List.nil_append] at hoperator
    rw [normalizeComparator_of_trim htrim hfront hmark hversion, hoperator]

namespace Comparator

theorem IsLenientSpelling.comma_notMem {cs : List Char} {c : Comparator} (h : c.IsLenientSpelling cs) :
    ',' ∉ cs := by
  obtain ⟨rfl, hbefore, hsign, hbetween, hmark, hbody, hafter⟩ := h
  have hmark' : ',' ∉ _ := fun hmem => absurd (hmark.forall_mem ',' hmem).1 (by decide)
  simp [comma_notMem_of_isBlank hbefore, hsign.comma_notMem, comma_notMem_of_isBlank hbetween, hmark',
    hbody.comma_notMem, comma_notMem_of_isBlank hafter]

/-- A comparator as it stands in a requirement, with no space before it. -/
structure IsTrimmed (cs : List Char) (c : Comparator) : Prop where
  spelling : c.IsSpelling cs
  trimmed : StopsAt (· == ' ') cs

/-- Leniently spelled, a comparator is normalized to its operator and its numbers. -/
theorem IsLenientSpelling.isTrimmed {cs : List Char} {c : Comparator} (h : c.IsLenientSpelling cs) :
    c.IsTrimmed (normalizeComparator cs) := by
  obtain ⟨rfl, hbefore, hsign, hbetween, hmark, hbody, hafter⟩ := h
  rw [normalizeComparator_append hbefore hsign hbetween hmark hbody.isVersionText hafter]
  refine ⟨⟨by simp, hsign, List.forall_mem_nil _, hbody⟩, ?_⟩
  have hblank := stopsAt_append
    (fun d hd => (hsign.forall_mem d (List.mem_of_mem_head? hd)).2.1)
    (fun d hd => not_isBlank_of_isBodyChar (hbody.forall_isBodyChar d (List.mem_of_mem_head? hd)))
  exact hblank.mono fun d hd => by
    rw [beq_iff_eq.1 hd]
    decide

end Comparator

/-- However a comparator alone is spelled, it is read as the requirement of it alone. -/
theorem parseConstraint_of_isLenientSpelling {constraint : String} {c : Comparator}
    (h : c.IsLenientSpelling constraint.toList) : parseConstraint constraint = .ok ⟨[c]⟩ := by
  obtain ⟨hspelling, htrimmed⟩ := h.isTrimmed
  have hread := readStrict_of_isSpelling hspelling htrimmed (List.forall_mem_nil _) (List.forall_mem_nil _)
  rw [List.nil_append, List.append_nil] at hread
  unfold parseConstraint normalizeConstraint
  rw [splitOn_of_notMem h.comma_notMem]
  exact Run.mapError_eq_ok_iff.2 hread

/-! ## The text of a comparator -/

/-- A comparator that some text spells: its numbers fit, a number in the third place has one in the
second, only three numbers have a pre-release, and only a wildcard stands for less than three. -/
structure Comparator.IsWellFormed (c : Comparator) : Prop where
  major_fits : c.major < 2 ^ 64
  minor_fits : ∀ n, c.minor = some n → n < 2 ^ 64
  patch_fits : ∀ n, c.patch = some n → n < 2 ^ 64
  minor_of_patch : c.minor = none → c.patch = none
  pre_of_patch : c.patch = none → c.pre = []
  patch_of_wildcard : c.op = .wildcard → c.patch = none
  marked : ∃ front, IsMarked '-' front c.pre
  proper : ∀ id ∈ c.pre, id.IsProper

theorem IsPlace.fits {front : List Char} {place : Place} (h : IsPlace front place) :
    ∀ n, place.number? = some n → n < 2 ^ 64 := by
  cases h with
  | absent => exact fun n hn => (by cases hn)
  | any hs => exact fun n hn => (by cases hn)
  | given hb => exact fun n hn => Option.some.inj hn ▸ hb.fits

theorem Comparator.IsSpelling.isWellFormed {cs : List Char} {c : Comparator} (h : c.IsSpelling cs) :
    c.IsWellFormed := by
  obtain ⟨-, hsign, -, hmajor, hminor, hpatch, aligned, ending⟩ := h
  refine ⟨hmajor.fits, hminor.fits, hpatch.fits, fun hnone => ?_, fun hnone => ?_, fun hop => ?_, ?_, ?_⟩
  · cases aligned with
    | absent => rfl
    | any h => rfl
    | given m n => cases hnone
  · cases ending with
    | bare h => rfl
    | full h => cases hnone
  · cases aligned with
    | absent => rfl
    | any h => rfl
    | given m n =>
      cases hsign with
      | absent => cases hop
      | written h => exact absurd hop h
  · cases ending with
    | bare h => exact ⟨[], .absent⟩
    | full h =>
      obtain ⟨hpre, -, -⟩ := h
      exact ⟨_, hpre⟩
  · cases ending with
    | bare h => exact List.forall_mem_nil _
    | full h =>
      obtain ⟨-, proper, -⟩ := h
      exact proper

/-- The text of a comparator spells it: a wildcard is written as such, and all else with its operator. -/
theorem Comparator.IsWellFormed.isLenientSpelling {c : Comparator} (h : c.IsWellFormed) :
    c.IsLenientSpelling c.chars := by
  obtain ⟨op, major, minor, patch, pre⟩ := c
  obtain ⟨hmajor, hminor, hpatch, hsecond, hpre, hthird, ⟨front, hfront⟩, proper⟩ := h
  have ha := isNumber_number hmajor
  have spelled {sign body : List Char} {written : Option Operator}
      (hsign : IsOperator sign written) (hbody : IsBody body written ⟨op, major, minor, patch, pre⟩)
      (text : Comparator.chars ⟨op, major, minor, patch, pre⟩ = sign ++ body) :
      Comparator.IsLenientSpelling (Comparator.chars ⟨op, major, minor, patch, pre⟩)
        ⟨op, major, minor, patch, pre⟩ :=
    have hblank := List.forall_mem_nil (isBlank · = true)
    ⟨by simpa using text, hblank, hsign, hblank, .inl rfl, hbody, hblank⟩
  by_cases hop : op = .wildcard
  · subst hop
    obtain rfl := hthird rfl
    obtain rfl := hpre rfl
    cases minor with
    | none =>
      exact spelled .absent (.mk ha (.any (.inl rfl)) .absent (.absent _) (.bare (by simp)))
        (by simp [Comparator.chars, Operator.symbol])
    | some y =>
      have hb := isNumber_number (hminor y rfl)
      exact spelled .absent (.mk ha (.given hb) (.any (.inl rfl)) (.any (by simp)) (.bare (by simp)))
        (by simp [Comparator.chars, Operator.symbol])
  · cases minor with
    | none =>
      obtain rfl := hsecond rfl
      obtain rfl := hpre rfl
      exact spelled (.written hop) (.mk ha .absent .absent (.absent _) (.bare (by simp)))
        (by simp [Comparator.chars, hop])
    | some y =>
      have hb := isNumber_number (hminor y rfl)
      cases patch with
      | none =>
        obtain rfl := hpre rfl
        exact spelled (.written hop) (.mk ha (.given hb) .absent (.absent _) (.bare (by simp)))
          (by simp [Comparator.chars, hop])
      | some z =>
        have hc := isNumber_number (hpatch z rfl)
        exact spelled (.written hop)
          (.mk ha (.given hb) (.given hc) (.given y z) (.full ⟨hfront, proper, .absent⟩))
          (by simp [Comparator.chars, hfront.eq])

theorem parseConstraint_text {c : Comparator} (h : c.IsWellFormed) :
    parseConstraint c.text = .ok ⟨[c]⟩ := by
  refine parseConstraint_of_isLenientSpelling ?_
  rw [Comparator.text, String.toList_ofList]
  exact h.isLenientSpelling

/-! ## Comparators that were read -/

/-- Reading a row reads one comparator, and goes on behind a comma. -/
theorem exists_of_readComparators {room : ℕ} {cs : List Char} {comparators : List Comparator}
    (h : readComparators (room + 1) cs = .ok comparators) :
    ∃ c last rest, readComparator cs = .ok (c, last, rest) ∧
      (rest = [] ∧ comparators = [c] ∨
        ∃ tail more, rest = ',' :: tail ∧ readComparators room (trimSpaces tail) = .ok more ∧
          comparators = c :: more) := by
  rw [readComparators] at h
  cases hread : readComparator cs with
  | error fault =>
    rw [hread] at h
    cases h
  | ok r =>
    obtain ⟨c, last, rest⟩ := r
    rw [hread] at h
    dsimp only at h
    refine ⟨c, last, rest, rfl, ?_⟩
    split at h
    · exact .inl ⟨rfl, (Except.ok.inj h).symm⟩
    · obtain ⟨more, hmore, h⟩ := Run.except_bind_eq_ok_iff.1 h
      exact .inr ⟨_, more, rfl, hmore, (Except.ok.inj h).symm⟩
    · cases h

theorem isWellFormed_of_readComparators {room : ℕ} {cs : List Char} {comparators : List Comparator}
    (h : readComparators room cs = .ok comparators) : ∀ c ∈ comparators, c.IsWellFormed := by
  induction room generalizing cs comparators with
  | zero => cases h
  | succ room ih =>
    obtain ⟨c, last, rest, hread, hrest⟩ := exists_of_readComparators h
    obtain ⟨front, after, -, hspelling, -⟩ := exists_of_readComparator hread
    rcases hrest with ⟨-, rfl⟩ | ⟨tail, more, -, hmore, rfl⟩
    · exact List.forall_mem_singleton.2 hspelling.isWellFormed
    · exact List.forall_mem_cons.2 ⟨hspelling.isWellFormed, ih hmore⟩

/-- Only a wildcard is read as no comparators. -/
theorem comparators_of_parseConstraint {constraint : String} {r : Requirement}
    (h : parseConstraint constraint = .ok r) :
    r.comparators = [] ∨
      readComparators comparatorLimit (trimSpaces (normalizeConstraint constraint.toList)) =
        .ok r.comparators := by
  have hread : Requirement.readStrict _ = .ok r := Run.mapError_eq_ok_iff.1 h
  unfold Requirement.readStrict at hread
  dsimp only at hread
  split at hread
  · split at hread
    · obtain rfl := Except.ok.inj hread
      exact .inl rfl
    · cases hread
    · cases hread
  · obtain ⟨comparators, hcomparators, rfl⟩ := Run.except_map_eq_ok_iff.1 hread
    exact .inr hcomparators

theorem isWellFormed_of_parseConstraint {constraint : String} {r : Requirement}
    (h : parseConstraint constraint = .ok r) : ∀ c ∈ r.comparators, c.IsWellFormed := by
  rcases comparators_of_parseConstraint h with hnil | hread
  · rw [hnil]
    exact List.forall_mem_nil _
  · exact isWellFormed_of_readComparators hread

/-! ## The parts of a constraint -/

theorem mem_of_mem_trim {cs : List Char} {c : Char} (h : c ∈ trim cs) : c ∈ cs := by
  obtain ⟨before, after, hcs, -⟩ := exists_eq_append_trim cs
  rw [hcs]
  simp [h]

theorem mem_of_mem_dropV {cs : List Char} {c : Char} (h : c ∈ dropV cs) : c ∈ cs := by
  obtain ⟨mark, -, hcs⟩ := exists_eq_append_dropV cs
  rw [hcs]
  exact List.mem_append_right mark h

theorem mem_of_mem_normalizeComparator {cs : List Char} {c : Char} (h : c ∈ normalizeComparator cs) :
    c ∈ cs := by
  rcases List.mem_append.1 h with h | h
  · exact mem_of_mem_trim ((List.takeWhile_prefix _).subset (mem_of_mem_trim h))
  · exact mem_of_mem_trim ((List.dropWhile_suffix _).subset (mem_of_mem_dropV h))

theorem Comparator.IsSpelling.comma_notMem {cs : List Char} {c : Comparator} (h : c.IsSpelling cs) :
    ',' ∉ cs := by
  obtain ⟨rfl, hsign, hspaces, hbody⟩ := h
  simp [hsign.comma_notMem, comma_notMem_of_isBlank (isBlank_of_spaces hspaces), hbody.comma_notMem]

/-- What a comparator was read off is a constraint of it alone, and no comma is in it. -/
theorem exists_part_of_readComparator {cs rest : List Char} {c : Comparator} {last : VersionPart}
    (h : readComparator (trimSpaces cs) = .ok (c, last, rest)) :
    ∃ part, cs = part ++ rest ∧ ',' ∉ part ∧ Requirement.readStrict part = .ok ⟨[c]⟩ := by
  obtain ⟨front, after, hcs, hspelling, rfl⟩ := exists_of_readComparator h
  have hspaces (cs : List Char) : ∀ s ∈ cs.takeWhile (· == ' '), (s == ' ') = true :=
    fun s => List.mem_takeWhile_imp
  have hcomma (cs : List Char) := comma_notMem_of_isBlank (isBlank_of_spaces (hspaces cs))
  have trimmed : StopsAt (· == ' ') front := by
    have hstops : StopsAt (· == ' ') (front ++ after) := hcs ▸ stopsAt_dropWhile (· == ' ') cs
    obtain ⟨d, ds, rfl, -⟩ := hspelling.begins
    exact hstops
  refine ⟨cs.takeWhile (· == ' ') ++ (front ++ after.takeWhile (· == ' ')), ?_, ?_,
    readStrict_of_isSpelling hspelling trimmed (hspaces cs) (hspaces after)⟩
  · calc cs = cs.takeWhile (· == ' ') ++ trimSpaces cs := List.takeWhile_append_dropWhile.symm
      _ = cs.takeWhile (· == ' ') ++ (front ++ (after.takeWhile (· == ' ') ++ trimSpaces after)) := by
        rw [hcs, trimSpaces, List.takeWhile_append_dropWhile]
      _ = _ := by simp only [List.append_assoc]
  · simp [hcomma, hspelling.comma_notMem]

/-- A part without commas is the whole constraint. -/
theorem parseConstraint_of_readStrict {part : List Char} {r : Requirement} (h : ',' ∉ part)
    (hread : Requirement.readStrict (normalizeComparator part) = .ok r) :
    parseConstraint (String.ofList part) = .ok r := by
  unfold parseConstraint normalizeConstraint
  rw [String.toList_ofList, splitOn_of_notMem h]
  exact Run.mapError_eq_ok_iff.2 hread

theorem forall₂_of_readComparators {room : ℕ} {parts : List (List Char)} {comparators : List Comparator}
    (h : readComparators room (trimSpaces (join [',', ' '] (parts.map normalizeComparator))) =
      .ok comparators) (nonempty : parts ≠ []) (hcomma : ∀ part ∈ parts, ',' ∉ part) :
    List.Forall₂ (fun part c => parseConstraint (String.ofList part) = .ok ⟨[c]⟩) parts comparators := by
  induction parts generalizing room comparators with
  | nil => exact absurd rfl nonempty
  | cons part parts ih =>
    obtain ⟨hpart, hparts⟩ := List.forall_mem_cons.1 hcomma
    have hnormal : ',' ∉ normalizeComparator part := mt mem_of_mem_normalizeComparator hpart
    cases room with
    | zero => cases h
    | succ room =>
      obtain ⟨c, last, rest, hread, hrest⟩ := exists_of_readComparators h
      obtain ⟨front, htext, hfront, hstrict⟩ := exists_part_of_readComparator hread
      -- what was read ends where the part ends, since neither has a comma in it
      cases parts with
      | nil =>
        have htext : normalizeComparator part = front ++ rest := htext
        rcases hrest with ⟨rfl, rfl⟩ | ⟨tail, more, rfl, -, -⟩
        · rw [List.append_nil] at htext
          exact .cons (parseConstraint_of_readStrict hpart (htext ▸ hstrict)) .nil
        · rw [htext] at hnormal
          simp at hnormal
      | cons next parts =>
        rw [List.map_cons, List.map_cons, join_cons_cons, ← List.map_cons] at htext
        rcases hrest with ⟨rfl, rfl⟩ | ⟨tail, more, rfl, hmore, rfl⟩
        · rw [List.append_nil] at htext
          rw [← htext] at hfront
          simp at hfront
        · obtain ⟨hcut, htail⟩ := cut_unique (p := (· != ',')) htext
            (fun d hd => bne_iff_ne.2 fun heq => hnormal (heq ▸ hd))
            (fun d hd => bne_iff_ne.2 fun heq => hfront (heq ▸ hd)) (stopsAt_cons rfl) (stopsAt_cons rfl)
          obtain rfl := (List.cons.inj htail).2
          exact .cons (parseConstraint_of_readStrict hpart (hcut ▸ hstrict))
            (ih hmore (List.cons_ne_nil _ _) hparts)

/-- The comparators of a constraint are what its parts between commas say, each taken alone. -/
theorem forall₂_of_parseConstraint {constraint : String} {r : Requirement}
    (h : parseConstraint constraint = .ok r) (written : r.comparators ≠ []) :
    List.Forall₂ (fun part c => parseConstraint (String.ofList part) = .ok ⟨[c]⟩)
      (splitOn ',' constraint.toList) r.comparators := by
  have hread := (comparators_of_parseConstraint h).resolve_left written
  exact forall₂_of_readComparators hread (splitOn_ne_nil _ _) fun part hpart hmem =>
    (mem_splitOn hpart ',' hmem).2 rfl

end ClusterPackages
