import ClusterPackages.Proofs.PercentText
import ClusterPackages.Url.Basic

/-! Dot segments. A segment of one point stands for the place where it is written and one of two points
for the place above, each point percent-encoded or not; both are removed when an address is read. A
path without them stays as it is, and no other does. A text is written as a dot segment only if it is
one. -/

namespace ClusterPackages.Url

open Text

def isDot (segment : List Char) : Bool := isHere segment || isUp segment

theorem isHere_eq_false {s : List Char} (h : isDot s = false) : isHere s = false :=
  (Bool.or_eq_false_iff.1 h).1

theorem isUp_eq_false {s : List Char} (h : isDot s = false) : isUp s = false :=
  (Bool.or_eq_false_iff.1 h).2

/-! ## Removal -/

theorem walk_of_not_isDot (behind : List (List Char)) {segments : List (List Char)}
    (h : ∀ s ∈ segments, isDot s = false) : walk behind segments = behind.reverse ++ segments := by
  induction segments generalizing behind with
  | nil => simp [walk]
  | cons s rest ih =>
    obtain ⟨hs, hrest⟩ := List.forall_mem_cons.1 h
    cases rest with
    | nil => simp [walk, isUp_eq_false hs, isHere_eq_false hs]
    | cons next rest =>
      rw [walk, ih _ hrest]
      · simp [isUp_eq_false hs, isHere_eq_false hs]
      · simp

/-- Nothing that is kept is a dot segment. -/
theorem not_isDot_of_mem_walk {behind segments : List (List Char)} (h : ∀ s ∈ behind, isDot s = false) :
    ∀ s ∈ walk behind segments, isDot s = false := by
  have htail {behind : List (List Char)} (h : ∀ s ∈ behind, isDot s = false) :
      ∀ s ∈ behind.tail, isDot s = false := fun s hs => h s (List.mem_of_mem_tail hs)
  have hkept {s : List Char} (hup : ¬ isUp s = true) (hhere : ¬ isHere s = true) : isDot s = false :=
    Bool.or_eq_false_iff.2 ⟨Bool.not_eq_true _ ▸ hhere, Bool.not_eq_true _ ▸ hup⟩
  fun_induction walk behind segments with
  | case1 behind => exact fun s hs => h s (List.mem_reverse.1 hs)
  | case2 behind last =>
    simp only [List.mem_reverse]
    split_ifs with hup hhere
    · exact List.forall_mem_cons.2 ⟨rfl, htail h⟩
    · exact List.forall_mem_cons.2 ⟨rfl, h⟩
    · exact List.forall_mem_cons.2 ⟨hkept hup hhere, h⟩
  | case3 behind next rest _ ih =>
    refine ih ?_
    split_ifs with hup hhere
    · exact htail h
    · exact h
    · exact List.forall_mem_cons.2 ⟨hkept hup hhere, h⟩

theorem removeDotSegments_eq_self_iff {segments : List (List Char)} :
    removeDotSegments segments = segments ↔ ∀ s ∈ segments, isDot s = false := by
  constructor
  · intro h
    rw [← h]
    exact not_isDot_of_mem_walk (List.forall_mem_nil _)
  · exact walk_of_not_isDot []

/-! ## Texts -/

/-- The characters that points are written with. -/
def pointChars : List Char := ['.', '%', '2', 'e', 'E']

theorem mem_of_points {s : List Char} {n : ℕ} (h : points s = some n) :
    ∀ c ∈ s, c ∈ pointChars := by
  fun_induction points s generalizing n with
  | case1 => exact List.forall_mem_nil _
  | case2 cs ih =>
    obtain ⟨m, hm, -⟩ := Option.map_eq_some_iff.1 h
    exact List.forall_mem_cons.2 ⟨by decide, ih hm⟩
  | case3 e cs he ih =>
    obtain ⟨m, hm, -⟩ := Option.map_eq_some_iff.1 h
    have hmem : e ∈ pointChars := by
      rcases he with rfl | rfl <;> decide
    exact List.forall_mem_cons.2 ⟨by decide, List.forall_mem_cons.2 ⟨by decide,
      List.forall_mem_cons.2 ⟨hmem, ih hm⟩⟩⟩
  | case4 => cases h
  | case5 => cases h

/-- A segment with a character that no point is written with. -/
theorem not_isDot_of_mem {s : List Char} {c : Char} (hc : c ∈ s) (h : c ∉ pointChars) :
    isDot s = false := by
  have hnone : points s = none := by
    refine Option.eq_none_iff_forall_ne_some.2 fun n hn => h (mem_of_points hn c hc)
  simp [isDot, isHere, isUp, hnone]

theorem points_eq_none {c : Char} {cs : List Char} (hpoint : c ≠ '.')
    (hpercent : c = '%' → cs.head? ≠ some '2') : points (c :: cs) = none := by
  rw [points.eq_def]
  split
  · rename_i heq
    cases heq
  · rename_i heq
    exact absurd (List.cons.inj heq).1 hpoint
  · rename_i heq
    obtain ⟨hc, rfl⟩ := List.cons.inj heq
    exact absurd rfl (hpercent hc)
  · rfl

theorem upperHexDigit_eq_two_iff : ∀ n < 16, upperHexDigit n = '2' ↔ n = 2 := by decide

theorem upperHexDigit_eq_e_iff :
    ∀ n < 16, (upperHexDigit n = 'e' ∨ upperHexDigit n = 'E') ↔ n = 14 := by decide

/-- No other byte is written like a point. -/
theorem points_percentByte {b : ℕ} (hb : b < 256) (hpoint : b ≠ 46) (rest : List Char) :
    points (percentByte b ++ rest) = none := by
  have hhigh := upperHexDigit_eq_two_iff (b / 16) (by omega)
  have hlow := upperHexDigit_eq_e_iff (b % 16) (by omega)
  simp only [percentByte, List.cons_append, List.nil_append]
  by_cases h : upperHexDigit (b / 16) = '2'
  · have htwo := hhigh.1 h
    rw [h, points, if_neg]
    rw [hlow]
    omega
  · exact points_eq_none (by decide) fun _ heq => h (Option.some.inj heq)

theorem exists_encodeChar_eq_cons (c : Char) :
    ∃ b rest, encodeChar c = b :: rest ∧ (b = c.toNat ∨ 0x80 ≤ b) := by
  unfold encodeChar
  dsimp only
  split_ifs <;> exact ⟨_, _, rfl, by omega⟩

/-- No other character is written like a point. -/
theorem points_segmentChar {c : Char} (hpoint : c ≠ '.') (rest : List Char) :
    points (segmentChar c ++ rest) = none := by
  rw [segmentChar]
  split_ifs with hkept
  · have hpercent := ne_percent_of_isUnreserved (Bool.and_eq_true_iff.1 hkept).2
    exact points_eq_none hpoint fun hc => absurd hc hpercent
  · obtain ⟨b, bytes, hencode, hb⟩ := exists_encodeChar_eq_cons c
    have hne : b ≠ 46 := by
      rintro rfl
      rcases hb with hb | hb
      · exact hpoint (Char.ext (UInt32.toNat_inj.1 hb.symm))
      · omega
    have hlt := encodeChar_lt c b (hencode ▸ List.mem_cons_self)
    rw [hencode, List.flatMap_cons, List.append_assoc]
    exact points_percentByte hlt hne _

theorem points_percentSegment_iff {cs : List Char} {n : ℕ} :
    points (percentSegment cs) = some n ↔ cs = List.replicate n '.' := by
  induction cs generalizing n with
  | nil => cases n <;> simp [percentSegment, percentEncode, points, List.replicate_succ]
  | cons c cs ih =>
    rw [percentSegment_cons]
    by_cases hc : c = '.'
    · subst hc
      change (points (percentSegment cs)).map (· + 1) = some n ↔ _
      cases n with
      | zero => simp
      | succ n => simp [ih, List.replicate_succ]
    · rw [points_segmentChar hc]
      refine iff_of_false (by simp) fun h => hc ?_
      exact List.eq_of_mem_replicate (h ▸ List.mem_cons_self)

/-- A text is written as a dot segment only if it is one. -/
theorem isDot_percentSegment_iff {cs : List Char} :
    isDot (percentSegment cs) = true ↔ cs = ['.'] ∨ cs = ['.', '.'] := by
  simp only [isDot, isHere, isUp, Bool.or_eq_true, beq_iff_eq, points_percentSegment_iff]
  rfl

end ClusterPackages.Url
