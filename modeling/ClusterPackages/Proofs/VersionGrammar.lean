import ClusterPackages.Proofs.Cutting
import ClusterPackages.Proofs.Precedence
import Mathlib.Data.List.TakeWhile

/-! How versions are spelled: one, two or three numbers, a pre-release behind a hyphen, and build metadata
behind a plus (`Version.IsSpelling`). Each reader takes the longest front of its characters, and what may
follow a part is never one of them. So a spelling with three numbers is read as it was written, and
nothing else is (`readStrict_eq_ok_iff`). -/

namespace ClusterPackages

namespace Version

/-! ## The grammar -/

/-- A number as versions write it: decimal digits without a leading zero, of sixty-four bits. -/
structure IsNumber (cs : List Char) (n : ℕ) : Prop where
  nonempty : cs ≠ []
  digits : ∀ c ∈ cs, Text.isDigit c = true
  noLeadingZero : 1 < cs.length → cs.head? ≠ some '0'
  value : Text.decimal cs = n
  fits : n < 2 ^ 64

/-- One, two or three numbers with dots between; those that are left out are zero. -/
inductive IsCore : List Char → ℕ → ℕ → ℕ → Prop
  | one {a : List Char} {x : ℕ} (ha : IsNumber a x) : IsCore a x 0 0
  | two {a b : List Char} {x y : ℕ} (ha : IsNumber a x) (hb : IsNumber b y) :
      IsCore (a ++ '.' :: b) x y 0
  | three {a b c : List Char} {x y z : ℕ} (ha : IsNumber a x) (hb : IsNumber b y)
      (hc : IsNumber c z) : IsCore (a ++ '.' :: (b ++ '.' :: c)) x y z

/-- Identifiers as they are written with dots between: at least one, each of letters, digits and
hyphens, and none of them empty. -/
structure IsRow (ids : List Identifier) : Prop where
  nonempty : ids ≠ []
  identifiers : ∀ id ∈ ids, id ≠ [] ∧ ∀ c ∈ id, isIdentifierChar c = true

/-- A row behind its mark; without identifiers there is no mark. -/
inductive IsMarked (mark : Char) : List Char → List Identifier → Prop
  | absent : IsMarked mark [] []
  | present {ids : List Identifier} (h : IsRow ids) : IsMarked mark (mark :: Identifier.row ids) ids

/-- What follows the numbers: the pre-release, whose numbers have no leading zero, and the build
metadata. -/
inductive IsSuffix : List Char → List Identifier → List Identifier → Prop
  | mk {pre build : List Char} {as bs : List Identifier} (hpre : IsMarked '-' pre as)
      (proper : ∀ id ∈ as, id.IsProper) (hbuild : IsMarked '+' build bs) :
      IsSuffix (pre ++ build) as bs

/-- How a version is spelled without a `v` and without blanks around it. -/
inductive IsSpelling (cs : List Char) (v : Version) : Prop
  | mk {core suffix : List Char} (text : cs = core ++ suffix)
      (hcore : IsCore core v.major v.minor v.patch) (hsuffix : IsSuffix suffix v.pre v.build)

/-- A spelling with all three numbers. -/
inductive IsStrictSpelling (cs : List Char) (v : Version) : Prop
  | mk {a b c suffix : List Char} (text : cs = a ++ '.' :: (b ++ '.' :: (c ++ suffix)))
      (ha : IsNumber a v.major) (hb : IsNumber b v.minor) (hc : IsNumber c v.patch)
      (hsuffix : IsSuffix suffix v.pre v.build)

end Version

/-! ## Numbers -/

open Version Text

theorem readVersionNumber_append (part : VersionPart) {ds rest : List Char} {n : ℕ}
    (h : IsNumber ds n) (stops : StopsAt isDigit rest) :
    readVersionNumber part (ds ++ rest) = .ok (n, rest) := by
  unfold readVersionNumber
  rw [takeWhile_cut h.digits stops, dropWhile_cut h.digits stops]
  obtain ⟨nonempty, -, noLeadingZero, rfl, fits⟩ := h
  cases ds with
  | nil => exact absurd rfl nonempty
  | cons d more =>
    have hzero : ¬ (d = '0' ∧ more ≠ []) := by
      rintro ⟨rfl, hmore⟩
      exact noLeadingZero (by simpa [List.length_pos_iff] using hmore) rfl
    simp only [hzero, if_false]
    exact if_pos fits

theorem exists_of_readVersionNumber {part : VersionPart} {cs rest : List Char} {n : ℕ}
    (h : readVersionNumber part cs = .ok (n, rest)) :
    ∃ ds, cs = ds ++ rest ∧ IsNumber ds n ∧ StopsAt isDigit rest := by
  have hdigits : ∀ c ∈ cs.takeWhile isDigit, isDigit c = true := fun c => List.mem_takeWhile_imp
  have hstops := stopsAt_dropWhile isDigit cs
  have hcs := (List.takeWhile_append_dropWhile (p := isDigit) (l := cs)).symm
  unfold readVersionNumber at h
  generalize cs.takeWhile isDigit = ds at h hdigits hcs
  generalize cs.dropWhile isDigit = tail at h hstops hcs
  cases ds with
  | nil =>
    cases tail with
    | nil => cases h
    | cons c tail => cases h
  | cons d more =>
    dsimp only at h
    split_ifs at h with hzero hfits
    obtain ⟨rfl, rfl⟩ := Prod.mk.inj (Except.ok.inj h)
    refine ⟨d :: more, hcs, ⟨List.cons_ne_nil d more, hdigits, fun hlong hhead => ?_, rfl, hfits⟩,
      hstops⟩
    refine hzero ⟨Option.some.inj hhead, ?_⟩
    rintro rfl
    exact absurd hlong (by simp)

theorem readDot_eq_ok_iff {part : VersionPart} {cs rest : List Char} :
    readDot part cs = .ok rest ↔ cs = '.' :: rest := by
  cases cs with
  | nil => simp [readDot]
  | cons c cs =>
    rw [readDot]
    split_ifs with hc
    · simp [hc]
    · simp [hc]

/-! ## Rows -/

theorem checkIdentifiers_eq_ok_iff {part : VersionPart} {ids : List Identifier} :
    checkIdentifiers part ids = .ok () ↔
      (∀ id ∈ ids, id ≠ []) ∧ (part = .pre → ∀ id ∈ ids, id.IsProper) := by
  induction ids with
  | nil => simp [checkIdentifiers]
  | cons id ids ih =>
    rw [checkIdentifiers]
    split_ifs with hempty hzero
    · simp [hempty]
    · refine iff_of_false (by simp) fun h => ?_
      obtain ⟨hpart, hnumeric, hlong, hhead⟩ := hzero
      exact (h.2 hpart id List.mem_cons_self).noLeadingZero hnumeric hlong hhead
    · have hid : part = .pre → id.IsProper := fun hpart =>
        ⟨hempty, fun hnumeric hlong hhead => hzero ⟨hpart, hnumeric, hlong, hhead⟩⟩
      rw [ih]
      constructor
      · rintro ⟨hne, hproper⟩
        exact ⟨List.forall_mem_cons.2 ⟨hempty, hne⟩,
          fun hpart => List.forall_mem_cons.2 ⟨hid hpart, hproper hpart⟩⟩
      · rintro ⟨hne, hproper⟩
        exact ⟨(List.forall_mem_cons.1 hne).2, fun hpart => (List.forall_mem_cons.1 (hproper hpart)).2⟩

/-- What a row is made of: the characters of identifiers, and dots. -/
def inRow (c : Char) : Bool := isIdentifierChar c || c == '.'

theorem dot_notMem_of_isIdentifierChar {id : Identifier}
    (h : ∀ c ∈ id, isIdentifierChar c = true) : '.' ∉ id := by
  intro hdot
  have hchar := h '.' hdot
  revert hchar
  decide

theorem inRow_of_mem_row {ids : List Identifier}
    (h : ∀ id ∈ ids, ∀ c ∈ id, isIdentifierChar c = true) : ∀ c ∈ Identifier.row ids, inRow c = true := by
  unfold Identifier.row
  induction ids with
  | nil => simp [join]
  | cons id ids ih =>
    obtain ⟨hid, hids⟩ := List.forall_mem_cons.1 h
    have hfront : ∀ c ∈ id, inRow c = true := fun c hc => by simp [inRow, hid c hc]
    cases ids with
    | nil => exact hfront
    | cons next ids =>
      intro c hc
      rw [join_cons_cons, List.mem_append, List.singleton_append, List.mem_cons] at hc
      rcases hc with hc | rfl | hc
      · exact hfront c hc
      · rfl
      · exact ih hids c hc

theorem readIdentifiers_append (part : VersionPart) {ids : List Identifier} {rest : List Char}
    (h : IsRow ids) (proper : part = .pre → ∀ id ∈ ids, id.IsProper) (stops : StopsAt inRow rest) :
    readIdentifiers part (Identifier.row ids ++ rest) = .ok (ids, rest) := by
  have hinside := inRow_of_mem_row fun id hid => (h.identifiers id hid).2
  have hsplit : splitOn '.' (Identifier.row ids) = ids :=
    splitOn_join h.nonempty fun id hid => dot_notMem_of_isIdentifierChar (h.identifiers id hid).2
  have hcheck : checkIdentifiers part ids = .ok () :=
    checkIdentifiers_eq_ok_iff.2 ⟨fun id hid => (h.identifiers id hid).1, proper⟩
  unfold readIdentifiers
  change (checkIdentifiers part (splitOn '.' ((Identifier.row ids ++ rest).takeWhile inRow)) >>=
    fun _ => .ok (splitOn '.' ((Identifier.row ids ++ rest).takeWhile inRow),
      (Identifier.row ids ++ rest).dropWhile inRow)) = _
  rw [takeWhile_cut hinside stops, dropWhile_cut hinside stops, hsplit, hcheck]
  rfl

theorem row_of_readIdentifiers {part : VersionPart} {cs rest : List Char} {ids : List Identifier}
    (h : readIdentifiers part cs = .ok (ids, rest)) :
    cs = Identifier.row ids ++ rest ∧ IsRow ids ∧ (part = .pre → ∀ id ∈ ids, id.IsProper) := by
  obtain ⟨_, hcheck, h⟩ := Run.except_bind_eq_ok_iff.1 h
  obtain ⟨rfl, rfl⟩ := Prod.mk.inj (Except.ok.inj h)
  obtain ⟨hne, hproper⟩ := checkIdentifiers_eq_ok_iff.1 hcheck
  refine ⟨?_, ⟨splitOn_ne_nil _ _, fun id hid => ⟨hne id hid, fun c hc => ?_⟩⟩, hproper⟩
  · rw [Identifier.row, join_splitOn, List.takeWhile_append_dropWhile]
  · obtain ⟨hmem, hdot⟩ := mem_splitOn hid c hc
    have hc : inRow c = true := List.mem_takeWhile_imp hmem
    simpa [inRow, hdot] using hc

theorem readMarkedRow_append {mark : Char} (part before : VersionPart) {front rest : List Char}
    {ids : List Identifier} (h : IsMarked mark front ids)
    (proper : part = .pre → ∀ id ∈ ids, id.IsProper) (stops : StopsAt inRow rest)
    (unmarked : StopsAt (· == mark) rest) :
    ∃ last, readMarkedRow mark part before (front ++ rest) = .ok (ids, last, rest) := by
  unfold readMarkedRow
  cases h with
  | absent =>
    refine ⟨before, ?_⟩
    cases rest with
    | nil => rfl
    | cons c cs => exact if_neg (by simpa using unmarked c rfl)
  | present h =>
    refine ⟨part, ?_⟩
    simp only [List.cons_append, if_true]
    rw [readIdentifiers_append part h proper stops]
    rfl

theorem marked_of_readMarkedRow {mark : Char} {part before last : VersionPart} {cs rest : List Char}
    {ids : List Identifier} (h : readMarkedRow mark part before cs = .ok (ids, last, rest)) :
    ∃ front, cs = front ++ rest ∧ IsMarked mark front ids ∧
      (part = .pre → ∀ id ∈ ids, id.IsProper) := by
  unfold readMarkedRow at h
  cases cs with
  | nil =>
    obtain ⟨rfl, -, rfl⟩ := by simpa using h
    exact ⟨[], rfl, .absent, by simp⟩
  | cons c cs =>
    dsimp only at h
    split_ifs at h with hc
    · subst hc
      obtain ⟨⟨ids', rest'⟩, hread, h⟩ := Run.except_bind_eq_ok_iff.1 h
      obtain ⟨rfl, -, rfl⟩ := by simpa using h
      obtain ⟨rfl, hrow, hproper⟩ := row_of_readIdentifiers hread
      exact ⟨c :: Identifier.row ids, rfl, .present hrow, hproper⟩
    · obtain ⟨rfl, -, rfl⟩ := by simpa using h
      exact ⟨[], rfl, .absent, by simp⟩

/-! ## Three numbers -/

namespace Version

theorem IsMarked.stopsAt {mark : Char} {front : List Char} {ids : List Identifier}
    (h : IsMarked mark front ids) {p : Char → Bool} (hmark : p mark = false) : StopsAt p front := by
  cases h with
  | absent => exact stopsAt_nil
  | present h => exact stopsAt_cons hmark

/-- What follows the numbers begins with a mark. -/
theorem IsSuffix.stopsAt {suffix : List Char} {pre build : List Identifier}
    (h : IsSuffix suffix pre build) {p : Char → Bool} (hpre : p '-' = false) (hbuild : p '+' = false) :
    StopsAt p suffix := by
  cases h with
  | mk hmarked proper hmarked' =>
    cases hmarked with
    | absent => exact hmarked'.stopsAt hbuild
    | present h => exact stopsAt_cons hpre

theorem stopsAt_dot (rest : List Char) : StopsAt isDigit ('.' :: rest) := stopsAt_cons (by decide)

theorem readStrict_of_isStrictSpelling {cs : List Char} {v : Version} (h : IsStrictSpelling cs v) :
    readStrict cs = .ok v := by
  obtain ⟨rfl, ha, hb, hc, hsuffix⟩ := h
  obtain ⟨major, minor, patch, pre, build⟩ := v
  have hend := hsuffix.stopsAt (p := isDigit) (by decide) (by decide)
  have hpatch := readVersionNumber_append .patch hc hend
  rcases hsuffix with ⟨hpre, proper, hbuild⟩
  obtain ⟨last, hlast⟩ := readMarkedRow_append .pre .patch hpre (fun _ => proper)
    (hbuild.stopsAt (by decide)) (hbuild.stopsAt (by decide))
  obtain ⟨last', hlast'⟩ := readMarkedRow_append .build last hbuild (by simp) stopsAt_nil stopsAt_nil
  rw [List.append_nil] at hlast'
  rw [readStrict, if_neg (by simp [ha.nonempty])]
  refine Run.except_bind_eq_ok_iff.2 ⟨_, readVersionNumber_append .major ha (stopsAt_dot _), ?_⟩
  refine Run.except_bind_eq_ok_iff.2 ⟨_, readDot_eq_ok_iff.2 rfl, ?_⟩
  refine Run.except_bind_eq_ok_iff.2 ⟨_, readVersionNumber_append .minor hb (stopsAt_dot _), ?_⟩
  refine Run.except_bind_eq_ok_iff.2 ⟨_, readDot_eq_ok_iff.2 rfl, ?_⟩
  refine Run.except_bind_eq_ok_iff.2 ⟨_, hpatch, ?_⟩
  refine Run.except_bind_eq_ok_iff.2 ⟨_, hlast, ?_⟩
  exact Run.except_bind_eq_ok_iff.2 ⟨_, hlast', rfl⟩

theorem isStrictSpelling_of_readStrict {cs : List Char} {v : Version} (h : readStrict cs = .ok v) :
    IsStrictSpelling cs v := by
  unfold readStrict at h
  split_ifs at h
  · cases h
  obtain ⟨⟨major, cs₁⟩, hmajor, h⟩ := Run.except_bind_eq_ok_iff.1 h
  obtain ⟨cs₂, hdot, h⟩ := Run.except_bind_eq_ok_iff.1 h
  obtain ⟨⟨minor, cs₃⟩, hminor, h⟩ := Run.except_bind_eq_ok_iff.1 h
  obtain ⟨cs₄, hdot', h⟩ := Run.except_bind_eq_ok_iff.1 h
  obtain ⟨⟨patch, cs₅⟩, hpatch, h⟩ := Run.except_bind_eq_ok_iff.1 h
  obtain ⟨⟨pre, last, cs₆⟩, hpre, h⟩ := Run.except_bind_eq_ok_iff.1 h
  obtain ⟨⟨build, last', cs₇⟩, hbuild, h⟩ := Run.except_bind_eq_ok_iff.1 h
  cases cs₇ with
  | cons c cs => cases h
  | nil =>
    obtain rfl := Except.ok.inj h
    obtain ⟨a, rfl, ha, -⟩ := exists_of_readVersionNumber hmajor
    obtain rfl := readDot_eq_ok_iff.1 hdot
    obtain ⟨b, rfl, hb, -⟩ := exists_of_readVersionNumber hminor
    obtain rfl := readDot_eq_ok_iff.1 hdot'
    obtain ⟨c, rfl, hc, -⟩ := exists_of_readVersionNumber hpatch
    obtain ⟨front, rfl, hmarked, hproper⟩ := marked_of_readMarkedRow hpre
    obtain ⟨back, rfl, hmarked', -⟩ := marked_of_readMarkedRow hbuild
    rw [List.append_nil]
    exact ⟨rfl, ha, hb, hc, hmarked, hproper rfl, hmarked'⟩

theorem readStrict_eq_ok_iff {cs : List Char} {v : Version} :
    readStrict cs = .ok v ↔ IsStrictSpelling cs v :=
  ⟨isStrictSpelling_of_readStrict, readStrict_of_isStrictSpelling⟩

/-- Digits that stand where a strict spelling has its numbers are these numbers. -/
theorem IsStrictSpelling.numbers {a b c suffix : List Char} {v : Version}
    (h : IsStrictSpelling (a ++ '.' :: (b ++ '.' :: (c ++ suffix))) v)
    (ha : ∀ d ∈ a, isDigit d = true) (hb : ∀ d ∈ b, isDigit d = true)
    (hc : ∀ d ∈ c, isDigit d = true) (stops : StopsAt isDigit suffix) :
    IsNumber a v.major ∧ IsNumber b v.minor ∧ IsNumber c v.patch ∧ IsSuffix suffix v.pre v.build := by
  obtain ⟨text, ha', hb', hc', hsuffix⟩ := h
  obtain ⟨rfl, hrest⟩ := cut_unique text ha ha'.digits (stopsAt_dot _) (stopsAt_dot _)
  obtain ⟨rfl, hrest'⟩ :=
    cut_unique (List.cons.inj hrest).2 hb hb'.digits (stopsAt_dot _) (stopsAt_dot _)
  obtain ⟨rfl, rfl⟩ := cut_unique (List.cons.inj hrest').2 hc hc'.digits stops
    (hsuffix.stopsAt (by decide) (by decide))
  exact ⟨ha', hb', hc', hsuffix⟩

end Version
end ClusterPackages
