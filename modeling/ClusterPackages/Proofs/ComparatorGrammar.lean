import ClusterPackages.Proofs.VersionSpelling
import ClusterPackages.Version.RequirementParser

/-! How comparators are spelled: an operator or none, a first number, and in the places of the other two a
number, a wildcard or nothing, where what comes later is no more definite than what comes before. Only
three numbers may be followed by a pre-release and build metadata. What is spelled so is read as it was
written (`readComparator_append`), and nothing else is (`exists_of_readComparator`). -/

namespace ClusterPackages

open Text Version

/-! ## The grammar -/

/-- What stands for any number. -/
def IsWildcard (c : Char) : Prop := c = '*' ∨ c = 'x' ∨ c = 'X'

/-- How an operator is written, if it is. -/
inductive IsOperator : List Char → Option Operator → Prop
  | absent : IsOperator [] none
  | written {op : Operator} (h : op ≠ .wildcard) : IsOperator op.symbol (some op)

/-- How the place of a number after the first is filled. -/
inductive IsPlace : List Char → Place → Prop
  | absent : IsPlace [] .absent
  | any {s : Char} (hs : IsWildcard s) : IsPlace ['.', s] .any
  | given {b : List Char} {n : ℕ} (hb : IsNumber b n) : IsPlace ('.' :: b) (.given n)

def Place.isAny : Place → Bool
  | .any => true
  | _ => false

/-- The third place may be left out, be any number if the second is there, and be given if the second
is given. -/
inductive AreAligned : Place → Place → Prop
  | absent (minor : Place) : AreAligned minor .absent
  | any {minor : Place} (h : minor ≠ .absent) : AreAligned minor .any
  | given (m n : ℕ) : AreAligned (.given m) (.given n)

/-- What follows the third place. -/
inductive IsEnding : Place → List Char → List Identifier → Prop
  | bare {place : Place} (h : ∀ n, place ≠ .given n) : IsEnding place [] []
  | full {n : ℕ} {suffix : List Char} {pre build : List Identifier} (h : IsSuffix suffix pre build) :
      IsEnding (.given n) suffix pre

/-- What follows the operator. Without one, a wildcard decides which is meant. -/
inductive IsBody : List Char → Option Operator → Comparator → Prop
  | mk {a m p suffix : List Char} {written : Option Operator} {major : ℕ} {minor patch : Place}
      {pre : List Identifier} (hmajor : IsNumber a major) (hminor : IsPlace m minor)
      (hpatch : IsPlace p patch) (aligned : AreAligned minor patch)
      (ending : IsEnding patch suffix pre) :
      IsBody (a ++ (m ++ (p ++ suffix))) written
        { op := chooseOperator written minor patch, major, minor := minor.number?,
          patch := patch.number?, pre }

/-- How a comparator is spelled, with spaces behind its operator. -/
inductive Comparator.IsSpelling (cs : List Char) (c : Comparator) : Prop
  | mk {sign spaces body : List Char} {written : Option Operator}
      (text : cs = sign ++ (spaces ++ body)) (hsign : IsOperator sign written)
      (hspaces : ∀ s ∈ spaces, (s == ' ') = true) (hbody : IsBody body written c)

/-! ## Operators and wildcards -/

theorem readWildcard_eq_some_iff {cs rest : List Char} {c : Char} :
    readWildcard cs = some (c, rest) ↔ cs = c :: rest ∧ IsWildcard c := by
  cases cs with
  | nil => simp [readWildcard]
  | cons d cs =>
    rw [readWildcard]
    split_ifs with hd
    · constructor
      · intro h
        obtain ⟨rfl, rfl⟩ := Prod.mk.inj (Option.some.inj h)
        exact ⟨rfl, hd⟩
      · rintro ⟨h, -⟩
        obtain ⟨rfl, rfl⟩ := List.cons.inj h
        rfl
    · refine iff_of_false (by simp) ?_
      rintro ⟨h, hc⟩
      exact hd ((List.cons.inj h).1 ▸ hc)

theorem readWildcard_eq_none {d : Char} {cs : List Char} (h : ¬ IsWildcard d) :
    readWildcard (d :: cs) = none := if_neg h

theorem not_isWildcard_of_isDigit {d : Char} (h : isDigit d = true) : ¬ IsWildcard d := by
  rintro (rfl | rfl | rfl) <;> exact absurd h (by decide)

theorem isOperator_symbol (op : Operator) (h : op ≠ .wildcard) : IsOperator op.symbol (some op) := .written h

theorem exists_of_readOperator {cs rest : List Char} {written : Option Operator}
    (h : readOperator cs = (written, rest)) : ∃ sign, cs = sign ++ rest ∧ IsOperator sign written := by
  unfold readOperator at h
  split at h
  all_goals obtain ⟨rfl, rfl⟩ := Prod.mk.inj h
  · exact ⟨_, rfl, isOperator_symbol .greaterEq (by decide)⟩
  · exact ⟨_, rfl, isOperator_symbol .greater (by decide)⟩
  · exact ⟨_, rfl, isOperator_symbol .lessEq (by decide)⟩
  · exact ⟨_, rfl, isOperator_symbol .less (by decide)⟩
  · exact ⟨_, rfl, isOperator_symbol .exact (by decide)⟩
  · exact ⟨_, rfl, isOperator_symbol .tilde (by decide)⟩
  · exact ⟨_, rfl, isOperator_symbol .caret (by decide)⟩
  · exact ⟨[], rfl, .absent⟩

/-- What may stand behind an operator. -/
def isAfterOperator (c : Char) : Bool := isDigit c || c == ' '

theorem readOperator_append {sign rest : List Char} {written : Option Operator}
    (h : IsOperator sign written) {d : Char} (begins : rest.head? = some d)
    (hd : isAfterOperator d = true) : readOperator (sign ++ rest) = (written, rest) := by
  have hother {c : Char} (hc : isAfterOperator c = false) : d ≠ c := by
    rintro rfl
    rw [hd] at hc
    cases hc
  have hgt := hother (c := '>') (by decide)
  have hlt := hother (c := '<') (by decide)
  have heq := hother (c := '=') (by decide)
  have htilde := hother (c := '~') (by decide)
  have hcaret := hother (c := '^') (by decide)
  obtain ⟨tail, rfl⟩ := List.head?_eq_some_iff.1 begins
  cases h with
  | absent => simp [readOperator, hgt, hlt, heq, htilde, hcaret]
  | @written op hop =>
    cases op with
    | wildcard => exact absurd rfl hop
    | _ => simp [readOperator, Operator.symbol, heq]

/-! ## Places -/

/-- A place that is left out is followed by no dot, and a number by no digit. -/
theorem readPlace_append (part before : VersionPart) {afterAny : Bool} {front rest : List Char}
    {place : Place} (h : IsPlace front place) (allowed : afterAny = true → ∀ n, place ≠ .given n)
    (dotless : place = .absent → StopsAt (· == '.') rest) (stops : StopsAt isDigit rest) :
    ∃ last, readPlace part before afterAny (front ++ rest) = .ok (place, last, rest) := by
  cases h with
  | absent =>
    refine ⟨before, ?_⟩
    unfold readPlace
    split
    · rename_i tail htail
      rw [List.nil_append] at htail
      exact absurd (dotless rfl '.' (by rw [htail]; rfl)) (by decide)
    · rfl
  | @any s hs =>
    refine ⟨part, ?_⟩
    have hstar : readWildcard (s :: rest) = some (s, rest) := readWildcard_eq_some_iff.2 ⟨rfl, hs⟩
    unfold readPlace
    simp only [List.cons_append, List.nil_append, hstar]
  | @given b n hb =>
    refine ⟨part, ?_⟩
    have hnot : afterAny = false := by
      by_contra hafter
      exact allowed (by simpa using hafter) n rfl
    have hread := readVersionNumber_append part hb stops
    obtain ⟨d, ds, rfl, hd⟩ := hb.begins
    have hnone : readWildcard (d :: (ds ++ rest)) = none :=
      readWildcard_eq_none (not_isWildcard_of_isDigit hd)
    rw [List.cons_append] at hread
    unfold readPlace
    simp only [List.cons_append, hnone, hnot, hread]
    rfl

theorem exists_of_readPlace {part before last : VersionPart} {afterAny : Bool} {cs rest : List Char}
    {place : Place} (h : readPlace part before afterAny cs = .ok (place, last, rest)) :
    ∃ front, cs = front ++ rest ∧ IsPlace front place ∧
      (afterAny = true → ∀ n, place ≠ .given n) ∧
      (place = .absent → StopsAt (· == '.') rest) := by
  unfold readPlace at h
  split at h
  · rename_i tail
    split at h
    · rename_i s tail' hstar
      obtain ⟨rfl, hs⟩ := readWildcard_eq_some_iff.1 hstar
      obtain ⟨rfl, -, rfl⟩ := by simpa using h
      exact ⟨['.', s], rfl, .any hs, by simp, by simp⟩
    · split_ifs at h with hafter
      obtain ⟨⟨n, tail'⟩, hn, hplace⟩ := Run.except_bind_eq_ok_iff.1 h
      obtain ⟨b, rfl, hb, -⟩ := exists_of_readVersionNumber hn
      obtain ⟨rfl, hlast⟩ := Prod.mk.inj (Except.ok.inj hplace)
      obtain ⟨-, rfl⟩ := Prod.mk.inj hlast
      exact ⟨'.' :: b, rfl, .given hb, fun h => absurd h hafter, by simp⟩
  · rename_i hdot
    obtain ⟨rfl, -, rfl⟩ := by simpa using h
    refine ⟨[], rfl, .absent, by simp, fun _ c hc => ?_⟩
    obtain ⟨tail, rfl⟩ := List.head?_eq_some_iff.1 hc
    exact beq_eq_false_iff_ne.2 fun hc => hdot tail (by rw [hc])

theorem IsPlace.stopsAt {front : List Char} {place : Place} (h : IsPlace front place) {p : Char → Bool}
    (hdot : p '.' = false) : StopsAt p front := by
  cases h with
  | absent => exact stopsAt_nil
  | any hs => exact stopsAt_cons hdot
  | given hb => exact stopsAt_cons hdot

theorem AreAligned.absent_of_absent {minor patch : Place} (h : AreAligned minor patch)
    (hminor : minor = .absent) : patch = .absent := by
  cases h with
  | absent => rfl
  | any h => exact absurd hminor h
  | given m n => cases hminor

theorem AreAligned.not_given {minor patch : Place} (h : AreAligned minor patch)
    (hminor : minor.isAny = true) (n : ℕ) : patch ≠ .given n := by
  rintro rfl
  cases h with
  | given m n => cases hminor

/-! ## Endings -/

/-- Reads the pre-release and the build metadata behind three numbers. -/
def readEnding (patch : Place) (before : VersionPart) (cs : List Char) :
    Except VersionFault (List Identifier × VersionPart × List Char) :=
  match patch with
  | .given _ => do
    let (pre, last, cs) ← readMarkedRow '-' .pre before cs
    let (_, last, cs) ← readMarkedRow '+' .build last cs
    return (pre, last, cs)
  | _ => .ok ([], before, cs)

theorem IsEnding.stopsAt {place : Place} {suffix : List Char} {pre : List Identifier}
    (h : IsEnding place suffix pre) {p : Char → Bool} (hpre : p '-' = false) (hbuild : p '+' = false) :
    StopsAt p suffix := by
  cases h with
  | bare h => exact stopsAt_nil
  | full h => exact h.stopsAt hpre hbuild

theorem readEnding_append {patch : Place} {suffix rest : List Char} {pre : List Identifier}
    (h : IsEnding patch suffix pre) (before : VersionPart) (stops : StopsAt isVersionChar rest) :
    ∃ last, readEnding patch before (suffix ++ rest) = .ok (pre, last, rest) := by
  cases h with
  | bare h =>
    refine ⟨before, ?_⟩
    cases patch with
    | absent => rfl
    | any => rfl
    | given n => exact absurd rfl (h n)
  | full h =>
    obtain ⟨hpre, proper, hbuild⟩ := h
    have hrow : StopsAt inRow rest := stops.mono fun c hc => by simp [isVersionChar, hc]
    have hminus : StopsAt (· == '-') rest := stops.mono fun c hc => by
      rw [beq_iff_eq.1 hc]
      rfl
    have hplus : StopsAt (· == '+') rest := stops.mono fun c hc => by
      rw [beq_iff_eq.1 hc]
      rfl
    obtain ⟨last, hlast⟩ := readMarkedRow_append .pre before hpre (fun _ => proper)
      (stopsAt_append (hbuild.stopsAt (by decide)) hrow)
      (stopsAt_append (hbuild.stopsAt (by decide)) hminus)
    obtain ⟨last', hlast'⟩ := readMarkedRow_append .build last hbuild (by simp) hrow hplus
    refine ⟨last', ?_⟩
    rw [List.append_assoc]
    refine Run.except_bind_eq_ok_iff.2 ⟨_, hlast, ?_⟩
    exact Run.except_bind_eq_ok_iff.2 ⟨_, hlast', rfl⟩

theorem exists_of_readEnding {patch : Place} {before last : VersionPart} {cs rest : List Char}
    {pre : List Identifier} (h : readEnding patch before cs = .ok (pre, last, rest)) :
    ∃ suffix, cs = suffix ++ rest ∧ IsEnding patch suffix pre := by
  cases patch with
  | given n =>
    obtain ⟨⟨pre', last', cs'⟩, hpre, h⟩ := Run.except_bind_eq_ok_iff.1 h
    obtain ⟨⟨build, last'', rest'⟩, hbuild, h⟩ := Run.except_bind_eq_ok_iff.1 h
    obtain ⟨rfl, hrest⟩ := Prod.mk.inj (Except.ok.inj h)
    obtain ⟨-, rfl⟩ := Prod.mk.inj hrest
    obtain ⟨front, rfl, hmarked, hproper⟩ := marked_of_readMarkedRow hpre
    obtain ⟨back, rfl, hmarked', -⟩ := marked_of_readMarkedRow hbuild
    exact ⟨front ++ back, (List.append_assoc _ _ _).symm, .full ⟨hmarked, hproper rfl, hmarked'⟩⟩
  | absent | any =>
    obtain ⟨rfl, hrest⟩ := Prod.mk.inj (Except.ok.inj h)
    obtain ⟨-, rfl⟩ := Prod.mk.inj hrest
    exact ⟨[], rfl, .bare (by simp)⟩

/-! ## Comparators -/

/-- A comparator is read part by part. -/
theorem readComparator_eq (cs : List Char) :
    readComparator cs = (do
      let (major, cs₁) ← readVersionNumber .major (trimSpaces (readOperator cs).2)
      let (minor, last, cs₂) ← readPlace .minor .major false cs₁
      let (patch, last, cs₃) ← readPlace .patch last minor.isAny cs₂
      let (pre, last, cs₄) ← readEnding patch last cs₃
      return ({ op := chooseOperator (readOperator cs).1 minor patch, major, minor := minor.number?,
                patch := patch.number?, pre }, last, trimSpaces cs₄)) := by
  unfold readComparator
  rcases readOperator cs with ⟨written, cs₀⟩
  refine bind_congr fun ⟨major, cs₁⟩ => bind_congr fun ⟨minor, last, cs₂⟩ =>
    bind_congr fun ⟨patch, last, cs₃⟩ => ?_
  cases patch with
  | absent => rfl
  | any => rfl
  | given n => simp only [readEnding, bind_assoc, if_true, pure_bind]

theorem readComparator_append {front rest : List Char} {c : Comparator} (h : c.IsSpelling front)
    (stops : StopsAt isVersionChar rest) :
    ∃ last, readComparator (front ++ rest) = .ok (c, last, trimSpaces rest) := by
  obtain ⟨rfl, hsign, hspaces, hbody⟩ := h
  rename_i sign spaces body written
  rcases hbody with ⟨hmajor, hminor, hpatch, aligned, ending⟩
  rename_i a m p suffix major minor patch pre
  -- no part is followed by a character that it could go on with
  have hdigit : StopsAt isDigit (suffix ++ rest) :=
    stopsAt_append (ending.stopsAt (by decide) (by decide)) (stops.mono fun c => isVersionChar_of_isDigit)
  have hdot : StopsAt (· == '.') (suffix ++ rest) :=
    stopsAt_append (ending.stopsAt (by decide) (by decide)) (stops.mono fun c hc => by
      rw [beq_iff_eq.1 hc]
      rfl)
  have hdigit' : StopsAt isDigit (p ++ (suffix ++ rest)) := stopsAt_append (hpatch.stopsAt (by decide)) hdigit
  have hdot' : minor = .absent → StopsAt (· == '.') (p ++ (suffix ++ rest)) := by
    intro habsent
    obtain rfl := aligned.absent_of_absent habsent
    cases hpatch with
    | absent => exact hdot
  have hmajor' := readVersionNumber_append .major hmajor
    (stopsAt_append (hminor.stopsAt (p := isDigit) (by decide)) hdigit')
  have hnotAny : false = true → ∀ n, minor ≠ .given n := by simp
  obtain ⟨last, hminor'⟩ := readPlace_append .minor .major hminor hnotAny hdot' hdigit'
  obtain ⟨last', hpatch'⟩ := readPlace_append .patch last hpatch aligned.not_given (fun _ => hdot) hdigit
  obtain ⟨last'', hending⟩ := readEnding_append ending last' stops
  obtain ⟨d, ds, hbegins, hd⟩ := hmajor.begins
  have htrim : trimSpaces (spaces ++ (a ++ (m ++ (p ++ (suffix ++ rest))))) =
      a ++ (m ++ (p ++ (suffix ++ rest))) := by
    refine dropWhile_cut hspaces ?_
    rw [hbegins]
    refine stopsAt_cons (beq_eq_false_iff_ne.2 ?_)
    rintro rfl
    exact absurd hd (by decide)
  have hoperator : readOperator (sign ++ (spaces ++ (a ++ (m ++ (p ++ (suffix ++ rest)))))) =
      (written, spaces ++ (a ++ (m ++ (p ++ (suffix ++ rest))))) := by
    cases spaces with
    | nil => exact readOperator_append hsign (d := d) (by simp [hbegins]) (by simp [isAfterOperator, hd])
    | cons s ss =>
      have hs : s = ' ' := by simpa using hspaces s List.mem_cons_self
      exact readOperator_append hsign (d := s) rfl (by rw [hs]; rfl)
  refine ⟨last'', ?_⟩
  simp only [List.append_assoc]
  rw [readComparator_eq, hoperator, htrim]
  refine Run.except_bind_eq_ok_iff.2 ⟨_, hmajor', ?_⟩
  refine Run.except_bind_eq_ok_iff.2 ⟨_, hminor', ?_⟩
  refine Run.except_bind_eq_ok_iff.2 ⟨_, hpatch', ?_⟩
  exact Run.except_bind_eq_ok_iff.2 ⟨_, hending, rfl⟩

theorem exists_of_readComparator {cs rest : List Char} {c : Comparator} {last : VersionPart}
    (h : readComparator cs = .ok (c, last, rest)) :
    ∃ front after, cs = front ++ after ∧ c.IsSpelling front ∧ rest = trimSpaces after := by
  rw [readComparator_eq] at h
  obtain ⟨sign, hcs, hsign⟩ := exists_of_readOperator (Prod.eta (readOperator cs)).symm
  generalize (readOperator cs).1 = written at h hsign
  generalize (readOperator cs).2 = cs₀ at h hcs
  obtain ⟨⟨major, cs₁⟩, hread₁, h⟩ := Run.except_bind_eq_ok_iff.1 h
  obtain ⟨⟨minor, last₁, cs₂⟩, hread₂, h⟩ := Run.except_bind_eq_ok_iff.1 h
  obtain ⟨⟨patch, last₂, cs₃⟩, hread₃, h⟩ := Run.except_bind_eq_ok_iff.1 h
  obtain ⟨⟨pre, last₃, cs₄⟩, hread₄, h⟩ := Run.except_bind_eq_ok_iff.1 h
  obtain ⟨rfl, hrest⟩ := Prod.mk.inj (Except.ok.inj h)
  obtain ⟨-, rfl⟩ := Prod.mk.inj hrest
  obtain ⟨a, ha, hmajor, -⟩ := exists_of_readVersionNumber hread₁
  obtain ⟨m, rfl, hminor, -, hdot⟩ := exists_of_readPlace hread₂
  obtain ⟨p, rfl, hpatch, hgiven, -⟩ := exists_of_readPlace hread₃
  obtain ⟨suffix, rfl, ending⟩ := exists_of_readEnding hread₄
  have aligned : AreAligned minor patch := by
    cases hpatch with
    | absent => exact .absent minor
    | any hs => exact .any fun habsent => absurd (hdot habsent '.' rfl) (by decide)
    | @given b n hb =>
      cases minor with
      | absent => exact absurd (hdot rfl '.' rfl) (by decide)
      | any => exact absurd rfl (hgiven rfl n)
      | given m => exact .given m n
  have hspaces : cs₀ = cs₀.takeWhile (· == ' ') ++ (a ++ (m ++ (p ++ (suffix ++ cs₄)))) := by
    rw [← ha]
    exact List.takeWhile_append_dropWhile.symm
  refine ⟨sign ++ (cs₀.takeWhile (· == ' ') ++ (a ++ (m ++ (p ++ suffix)))), cs₄, ?_,
    ⟨rfl, hsign, fun s => List.mem_takeWhile_imp, .mk hmajor hminor hpatch aligned ending⟩, rfl⟩
  calc cs = sign ++ (cs₀.takeWhile (· == ' ') ++ (a ++ (m ++ (p ++ (suffix ++ cs₄))))) := by
        rw [← hspaces, hcs]
    _ = _ := by simp only [List.append_assoc]

end ClusterPackages
