import ClusterPackages.Proofs.VersionGrammar

/-! Which texts are versions. A text that cannot be read as it is may be padded, and then it is read if its
core was one or two numbers; no text can be read both ways. Blanks around a text are dropped, and then
one `v`. What is read that way is what the grammar says, for every text. -/

namespace ClusterPackages.Version

open Text

/-! ## One or two numbers -/

/-- What the numbers of a version are looked for in. -/
def inCore (c : Char) : Bool := c != '-' && c != '+'

theorem inCore_of_isDigit {c : Char} (h : isDigit c = true) : inCore c = true := by
  have hminus : c ≠ '-' := by
    rintro rfl
    exact absurd h (by decide)
  have hplus : c ≠ '+' := by
    rintro rfl
    exact absurd h (by decide)
  simp [inCore, hminus, hplus]

theorem stopsAt_isDigit {suffix : List Char} (stops : StopsAt inCore suffix) :
    StopsAt isDigit suffix := by
  intro c hc
  by_contra hdigit
  have hcore := inCore_of_isDigit (Bool.not_eq_false _ ▸ hdigit)
  rw [stops c hc] at hcore
  cases hcore

theorem padCore?_append {core suffix : List Char} (inside : ∀ c ∈ core, inCore c = true)
    (stops : StopsAt inCore suffix) :
    padCore? (core ++ suffix) =
      if (splitOn '.' core).all (fun p => p != [] && p.all isDigit) && (splitOn '.' core).length < 3 then
        some (core ++ (List.replicate (3 - (splitOn '.' core).length) ['.', '0']).flatten ++ suffix)
      else none := by
  unfold padCore?
  change (if (splitOn '.' ((core ++ suffix).takeWhile inCore)).all (fun p => p != [] && p.all isDigit) &&
      (splitOn '.' ((core ++ suffix).takeWhile inCore)).length < 3 then
    some ((core ++ suffix).takeWhile inCore ++ (List.replicate
      (3 - (splitOn '.' ((core ++ suffix).takeWhile inCore)).length) ['.', '0']).flatten ++
        (core ++ suffix).dropWhile inCore)
    else none) = _
  rw [takeWhile_cut inside stops, dropWhile_cut inside stops]

/-- Digits, at least one. -/
def IsDigits (cs : List Char) : Prop := cs ≠ [] ∧ ∀ c ∈ cs, isDigit c = true

theorem dot_notMem_of_isDigits {cs : List Char} (h : IsDigits cs) : '.' ∉ cs := fun hdot =>
  absurd (h.2 '.' hdot) (by decide)

theorem isDigits_iff (cs : List Char) :
    (cs != [] && cs.all isDigit) = true ↔ IsDigits cs := by
  simp [IsDigits]

instance (cs : List Char) : Decidable (IsDigits cs) := decidable_of_iff _ (isDigits_iff cs)

/-- A core that is padded has one number or two. -/
inductive IsPadded : List Char → List Char → Prop
  | one {a suffix : List Char} (ha : IsDigits a) (stops : StopsAt inCore suffix) :
      IsPadded (a ++ suffix) (a ++ '.' :: (['0'] ++ '.' :: (['0'] ++ suffix)))
  | two {a b suffix : List Char} (ha : IsDigits a) (hb : IsDigits b) (stops : StopsAt inCore suffix) :
      IsPadded (a ++ '.' :: (b ++ suffix)) (a ++ '.' :: (b ++ '.' :: (['0'] ++ suffix)))

theorem isPadded_of_padCore? {cs padded : List Char} (h : padCore? cs = some padded) :
    IsPadded cs padded := by
  have inside : ∀ c ∈ cs.takeWhile inCore, inCore c = true := fun c => List.mem_takeWhile_imp
  have stops := stopsAt_dropWhile inCore cs
  rw [← List.takeWhile_append_dropWhile (p := inCore) (l := cs)] at h ⊢
  generalize cs.takeWhile inCore = core at h inside ⊢
  generalize cs.dropWhile inCore = suffix at h stops ⊢
  rw [padCore?_append inside stops] at h
  have hjoin := join_splitOn '.' core
  have hne := splitOn_ne_nil '.' core
  generalize splitOn '.' core = parts at h hjoin hne
  split_ifs at h with hshort
  obtain rfl := Option.some.inj h
  subst hjoin
  obtain ⟨hall, hlength⟩ := Bool.and_eq_true_iff.1 hshort
  have hdigits : ∀ part ∈ parts, IsDigits part := fun part hpart =>
    (isDigits_iff part).1 (List.all_eq_true.1 hall part hpart)
  have hfew := of_decide_eq_true hlength
  rcases parts with _ | ⟨a, _ | ⟨b, _ | ⟨c, parts⟩⟩⟩
  · exact absurd rfl hne
  · have hpadded := IsPadded.one (hdigits a (by simp)) stops
    simpa [join] using hpadded
  · have hpadded := IsPadded.two (hdigits a (by simp)) (hdigits b (by simp)) stops
    simpa [join] using hpadded
  · simp only [List.length_cons] at hfew
    omega

theorem padCore?_of_isPadded {cs padded : List Char} (h : IsPadded cs padded) :
    padCore? cs = some padded := by
  cases h with
  | @one a suffix ha stops =>
    have inside : ∀ c ∈ a, inCore c = true := fun c hc => inCore_of_isDigit (ha.2 c hc)
    rw [padCore?_append inside stops, splitOn_of_notMem (dot_notMem_of_isDigits ha)]
    have hdigits := (isDigits_iff a).2 ha
    simp [hdigits]
  | @two a b suffix ha hb stops =>
    have inside : ∀ c ∈ a ++ '.' :: b, inCore c = true := by
      intro c hc
      rcases List.mem_append.1 hc with hc | hc
      · exact inCore_of_isDigit (ha.2 c hc)
      · rcases List.mem_cons.1 hc with rfl | hc
        · rfl
        · exact inCore_of_isDigit (hb.2 c hc)
    have hdigits := (isDigits_iff a).2 ha
    have hdigits' := (isDigits_iff b).2 hb
    rw [← List.cons_append, ← List.append_assoc, padCore?_append inside stops,
      splitOn_append (dot_notMem_of_isDigits ha), splitOn_of_notMem (dot_notMem_of_isDigits hb)]
    simp [hdigits, hdigits']

theorem isDigit_of_mem_zero : ∀ c ∈ ['0'], isDigit c = true := List.forall_mem_singleton.2 (by decide)

theorem isNumber_zero_iff {n : ℕ} : IsNumber ['0'] n ↔ n = 0 :=
  ⟨fun h => h.value.symm, fun h => h ▸ ⟨by decide, isDigit_of_mem_zero, by decide, rfl, by decide⟩⟩

/-- A padded text is read as the text that it was made from is spelled. -/
theorem IsPadded.isSpelling {cs padded : List Char} {v : Version} (hpadded : IsPadded cs padded)
    (h : IsStrictSpelling padded v) : IsSpelling cs v := by
  have hzero := isDigit_of_mem_zero
  cases hpadded with
  | one ha stops =>
    obtain ⟨hmajor, hminor, hpatch, hsuffix⟩ := h.numbers ha.2 hzero hzero (stopsAt_isDigit stops)
    refine ⟨rfl, ?_, hsuffix⟩
    rw [isNumber_zero_iff.1 hminor, isNumber_zero_iff.1 hpatch]
    exact .one hmajor
  | two ha hb stops =>
    obtain ⟨hmajor, hminor, hpatch, hsuffix⟩ := h.numbers ha.2 hb.2 hzero (stopsAt_isDigit stops)
    refine ⟨by rw [← List.cons_append, ← List.append_assoc], ?_, hsuffix⟩
    rw [isNumber_zero_iff.1 hpatch]
    exact .two hmajor hminor

theorem IsNumber.isDigits {cs : List Char} {n : ℕ} (h : IsNumber cs n) : IsDigits cs :=
  ⟨h.nonempty, h.digits⟩

/-- A text whose core is short is no strict spelling. -/
theorem not_isStrictSpelling_of_isPadded {cs padded : List Char} (hpadded : IsPadded cs padded)
    (v : Version) : ¬ IsStrictSpelling cs v := by
  -- the mark that follows a short core stands where a dot would have to be
  have hmark {suffix rest : List Char} (stops : StopsAt inCore suffix) : suffix ≠ '.' :: rest := by
    rintro rfl
    exact absurd (stops '.' rfl) (by decide)
  rintro ⟨text, ha', hb', hc', hsuffix⟩
  cases hpadded with
  | one ha stops =>
    exact hmark stops (cut_unique text ha.2 ha'.digits (stopsAt_isDigit stops) (stopsAt_dot _)).2
  | two ha hb stops =>
    have hrest := (cut_unique text ha.2 ha'.digits (stopsAt_dot _) (stopsAt_dot _)).2
    exact hmark stops (cut_unique (List.cons.inj hrest).2 hb.2 hb'.digits (stopsAt_isDigit stops)
      (stopsAt_dot _)).2

theorem IsStrictSpelling.isSpelling {cs : List Char} {v : Version} (h : IsStrictSpelling cs v) :
    IsSpelling cs v := by
  obtain ⟨text, ha, hb, hc, hsuffix⟩ := h
  exact ⟨by simpa using text, .three ha hb hc, hsuffix⟩

theorem readLenient_of_isPadded {cs padded : List Char} {v : Version} (hpadded : IsPadded cs padded)
    (h : IsStrictSpelling padded v) : readLenient cs = .ok v := by
  unfold readLenient
  cases hstrict : readStrict cs with
  | ok w => exact absurd (readStrict_eq_ok_iff.1 hstrict) (not_isStrictSpelling_of_isPadded hpadded w)
  | error fault =>
    simp only [padCore?_of_isPadded hpadded, Option.map_some, readStrict_eq_ok_iff.2 h]

theorem readLenient_eq_ok_iff {cs : List Char} {v : Version} :
    readLenient cs = .ok v ↔ IsSpelling cs v := by
  constructor
  · intro h
    unfold readLenient at h
    split at h
    · rename_i w hw
      obtain rfl := Except.ok.inj h
      exact (readStrict_eq_ok_iff.1 hw).isSpelling
    · split at h
      · rename_i w hw
        obtain rfl := Except.ok.inj h
        obtain ⟨padded, hpadded, hread⟩ := Option.map_eq_some_iff.1 hw
        exact (isPadded_of_padCore? hpadded).isSpelling (readStrict_eq_ok_iff.1 hread)
      · cases h
  · rintro ⟨rfl, hcore, hsuffix⟩
    obtain ⟨major, minor, patch, pre, build⟩ := v
    have stops := hsuffix.stopsAt (p := inCore) (by decide) (by decide)
    have hzero := isNumber_zero_iff.2 rfl
    -- only a core of three numbers is read at the first try
    cases hcore with
    | one ha => exact readLenient_of_isPadded (.one ha.isDigits stops) ⟨rfl, ha, hzero, hzero, hsuffix⟩
    | two ha hb =>
      rw [List.append_assoc, List.cons_append]
      exact readLenient_of_isPadded (.two ha.isDigits hb.isDigits stops) ⟨rfl, ha, hb, hzero, hsuffix⟩
    | three ha hb hc =>
      unfold readLenient
      rw [readStrict_eq_ok_iff.2 ⟨by simp, ha, hb, hc, hsuffix⟩]

/-! ## Blanks and a mark -/

/-- What versions are made of. -/
def isVersionChar (c : Char) : Bool := inRow c || c == '+'

theorem not_isBlank_of_isVersionChar {c : Char} (h : isVersionChar c = true) : isBlank c = false := by
  have hle (a b : Char) : a ≤ b ↔ a.toNat ≤ b.toNat := Iff.rfl
  refine not_isBlank_of_printable ?_
  simp only [isVersionChar, inRow, isIdentifierChar, isDigit, isAsciiLetter, Bool.or_eq_true,
    Bool.and_eq_true, decide_eq_true_eq, beq_iff_eq, hle, Char.reduceToNat] at h
  rcases h with (((h | h | h) | rfl) | rfl) | rfl
  · omega
  · omega
  · omega
  · decide
  · decide
  · decide

theorem isVersionChar_of_isDigit {c : Char} (h : isDigit c = true) : isVersionChar c = true := by
  simp [isVersionChar, inRow, isIdentifierChar, h]

theorem IsCore.forall_isVersionChar {core : List Char} {x y z : ℕ} (h : IsCore core x y z) :
    ∀ c ∈ core, isVersionChar c = true := by
  have hnumber {ds : List Char} {n : ℕ} (h : IsNumber ds n) : ∀ c ∈ ds, isVersionChar c = true :=
    fun c hc => isVersionChar_of_isDigit (h.digits c hc)
  have hdot {ds rest : List Char} {n : ℕ} (h : IsNumber ds n)
      (hrest : ∀ c ∈ rest, isVersionChar c = true) : ∀ c ∈ ds ++ '.' :: rest, isVersionChar c = true :=
    List.forall_mem_append.2 ⟨hnumber h, List.forall_mem_cons.2 ⟨rfl, hrest⟩⟩
  cases h with
  | one ha => exact hnumber ha
  | two ha hb => exact hdot ha (hnumber hb)
  | three ha hb hc => exact hdot ha (hdot hb (hnumber hc))

theorem IsMarked.forall_isVersionChar {mark : Char} {front : List Char} {ids : List Identifier}
    (h : IsMarked mark front ids) (hmark : isVersionChar mark = true) :
    ∀ c ∈ front, isVersionChar c = true := by
  cases h with
  | absent => simp
  | present h =>
    refine List.forall_mem_cons.2 ⟨hmark, fun c hc => ?_⟩
    simp [isVersionChar, inRow_of_mem_row (fun id hid => (h.identifiers id hid).2) c hc]

theorem IsSpelling.forall_isVersionChar {cs : List Char} {v : Version} (h : IsSpelling cs v) :
    ∀ c ∈ cs, isVersionChar c = true := by
  obtain ⟨rfl, hcore, hpre, -, hbuild⟩ := h
  exact List.forall_mem_append.2
    ⟨hcore.forall_isVersionChar,
      List.forall_mem_append.2 ⟨hpre.forall_isVersionChar rfl, hbuild.forall_isVersionChar rfl⟩⟩

theorem IsNumber.begins {cs : List Char} {n : ℕ} (h : IsNumber cs n) :
    ∃ d rest, cs = d :: rest ∧ isDigit d = true := by
  cases cs with
  | nil => exact absurd rfl h.nonempty
  | cons d rest => exact ⟨d, rest, rfl, h.digits d List.mem_cons_self⟩

theorem IsCore.begins {core : List Char} {x y z : ℕ} (h : IsCore core x y z) :
    ∃ d rest, core = d :: rest ∧ isDigit d = true := by
  cases h with
  | one ha => exact ha.begins
  | two ha hb | three ha hb hc =>
    obtain ⟨d, rest, rfl, hd⟩ := ha.begins
    exact ⟨d, _, List.cons_append, hd⟩

/-- What may stand before a version. -/
def IsOptionalV (mark : List Char) : Prop := mark = [] ∨ mark = ['v'] ∨ mark = ['V']

theorem exists_eq_append_dropV (cs : List Char) : ∃ mark, IsOptionalV mark ∧ cs = mark ++ dropV cs := by
  cases cs with
  | nil => exact ⟨[], .inl rfl, rfl⟩
  | cons c cs =>
    rw [dropV]
    split_ifs with hc
    · refine ⟨[c], ?_, rfl⟩
      rcases hc with rfl | rfl
      · exact .inr (.inl rfl)
      · exact .inr (.inr rfl)
    · exact ⟨[], .inl rfl, rfl⟩

/-- What is no mark ends what is dropped. -/
theorem dropV_append_of_begins {mark cs : List Char} {d : Char} (hmark : IsOptionalV mark)
    (begins : cs.head? = some d) (hd : ¬ (d = 'v' ∨ d = 'V')) : dropV (mark ++ cs) = cs := by
  obtain ⟨rest, rfl⟩ := List.head?_eq_some_iff.1 begins
  rcases hmark with rfl | rfl | rfl
  · exact if_neg hd
  · rfl
  · rfl

theorem dropV_append {mark cs : List Char} {v : Version} (hmark : IsOptionalV mark)
    (h : IsSpelling cs v) : dropV (mark ++ cs) = cs := by
  obtain ⟨rfl, hcore, -⟩ := h
  obtain ⟨d, rest, rfl, hd⟩ := hcore.begins
  refine dropV_append_of_begins hmark rfl ?_
  rintro (rfl | rfl)
  · exact absurd hd (by decide)
  · exact absurd hd (by decide)

theorem parse?_eq_some_iff {text : String} {v : Version} :
    parse? text = some v ↔ IsSpelling (dropV (trim text.toList)) v := by
  rw [← readLenient_eq_ok_iff]
  unfold parse? parse
  cases readLenient (dropV (trim text.toList)) <;> simp [Except.toOption]

/-- A spelling may have blanks around it and a `v` before it. -/
theorem parse?_of_isSpelling {text : String} {v : Version} {before mark cs after : List Char}
    (htext : text.toList = before ++ (mark ++ (cs ++ after)))
    (hbefore : ∀ c ∈ before, isBlank c = true) (hafter : ∀ c ∈ after, isBlank c = true)
    (hmark : IsOptionalV mark) (h : IsSpelling cs v) : parse? text = some v := by
  have hchars : ∀ c ∈ mark ++ cs, isBlank c = false := by
    refine List.forall_mem_append.2
      ⟨?_, fun c hc => not_isBlank_of_isVersionChar (h.forall_isVersionChar c hc)⟩
    rcases hmark with rfl | rfl | rfl
    · exact List.forall_mem_nil _
    · exact List.forall_mem_singleton.2 (by decide)
    · exact List.forall_mem_singleton.2 (by decide)
  have hne : mark ++ cs ≠ [] := by
    intro hnil
    obtain rfl := (List.append_eq_nil_iff.1 hnil).2
    obtain ⟨text, hcore, -⟩ := h
    obtain ⟨d, rest, rfl, -⟩ := hcore.begins
    cases text
  have htrim : trim text.toList = mark ++ cs := by
    rw [htext, ← List.append_assoc mark]
    exact trim_append hbefore hafter hne (fun c hc => hchars c (List.mem_of_mem_head? hc))
      fun c hc => hchars c (List.mem_reverse.1 (List.mem_of_mem_head? hc))
  rw [parse?_eq_some_iff, htrim, dropV_append hmark h]
  exact h

/-- A text is a version if it is a spelling of it, with blanks around and at most one `v` before it, and
nothing else is: of one, two or three numbers of sixty-four bits, with the identifiers of the
pre-release and of the build metadata as they are written. -/
theorem parse?_eq_some_iff_exists_isSpelling (text : String) (v : Version) :
    parse? text = some v ↔
      ∃ before mark cs after, text.toList = before ++ (mark ++ (cs ++ after)) ∧
        (∀ c ∈ before, isBlank c = true) ∧ (∀ c ∈ after, isBlank c = true) ∧
        (mark = [] ∨ mark = ['v'] ∨ mark = ['V']) ∧ IsSpelling cs v := by
  constructor
  · intro h
    obtain ⟨before, after, htext, hbefore, hafter⟩ := exists_eq_append_trim text.toList
    obtain ⟨mark, hmark, hcs⟩ := exists_eq_append_dropV (trim text.toList)
    refine ⟨before, mark, _, after, ?_, hbefore, hafter, hmark, parse?_eq_some_iff.1 h⟩
    rw [← List.append_assoc mark, ← hcs]
    exact htext
  · rintro ⟨before, mark, cs, after, htext, hbefore, hafter, hmark, h⟩
    exact parse?_of_isSpelling htext hbefore hafter hmark h

/-- Only build metadata may have leading zeros, only one `v` is dropped, and 2^64 is too much. -/
example :
    (parse? "V1.0+007").isSome ∧ parse? "1.02" = none ∧ parse? "1.0-007" = none ∧
    parse? "vv1" = none ∧ parse? "1-rc..1" = none ∧ parse? "18446744073709551616" = none := by
  decide +kernel

end ClusterPackages.Version
