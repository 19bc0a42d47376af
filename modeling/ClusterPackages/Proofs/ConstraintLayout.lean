import ClusterPackages.Proofs.ConstraintText
import Mathlib.Data.List.Forall2

/-! Constraints and requirements. A constraint is laid out in pieces with commas between, each an operator and
a version; the blanks between these and the `v` before a version are all that normalizing takes out of
it (`normalizeConstraint_of_areLaidOut`). A requirement is laid out so with spaces alone, and its text
with one space behind each comma, so both are read as constraints of the same comparators. -/

namespace ClusterPackages

open Text Version

/-! ## Many comparators -/

namespace Comparator

theorem IsTrimmed.trimSpaces_append {cs rest : List Char} {c : Comparator} (h : c.IsTrimmed cs) :
    trimSpaces (cs ++ rest) = cs ++ rest := by
  obtain ⟨d, tail, rfl, -⟩ := h.spelling.begins
  have hstops : StopsAt (· == ' ') (d :: tail ++ rest) :=
    stopsAt_append_of_ne_nil h.trimmed (List.cons_ne_nil d tail)
  exact dropWhile_cut (List.forall_mem_nil _) hstops

end Comparator

theorem exists_join_cons_eq_append (sep cs : List Char) (texts : List (List Char)) :
    ∃ rest, join sep (cs :: texts) = cs ++ rest := by
  cases texts with
  | nil => exact ⟨[], (List.append_nil cs).symm⟩
  | cons next texts => exact ⟨_, join_cons_cons sep cs next texts⟩

/-- Only spaces are skipped before a row of comparators. -/
theorem Comparator.IsTrimmed.trimSpaces_join {cs : List Char} {c : Comparator} (h : c.IsTrimmed cs)
    (texts : List (List Char)) :
    trimSpaces (join [',', ' '] (cs :: texts)) = join [',', ' '] (cs :: texts) := by
  obtain ⟨rest, hrest⟩ := exists_join_cons_eq_append [',', ' '] cs texts
  rw [hrest]
  exact h.trimSpaces_append

theorem readComparators_join {room : ℕ} {texts : List (List Char)} {comparators : List Comparator}
    (h : List.Forall₂ (fun cs c => Comparator.IsTrimmed cs c) texts comparators) (nonempty : texts ≠ [])
    (fits : comparators.length ≤ room) :
    readComparators room (join [',', ' '] texts) = .ok comparators := by
  induction h generalizing room with
  | nil => exact absurd rfl nonempty
  | @cons cs c texts comparators hc htexts ih =>
    obtain ⟨room, rfl⟩ := Nat.exists_eq_succ_of_ne_zero (Nat.ne_zero_of_lt fits)
    cases htexts with
    | nil =>
      obtain ⟨last, hread⟩ := readComparator_append hc.spelling (stopsAt_nil (p := isVersionChar))
      rw [List.append_nil] at hread
      simp only [join, readComparators, hread]
      rfl
    | @cons next c' texts comparators hnext htexts =>
      have hstops : StopsAt isVersionChar (',' :: ' ' :: join [',', ' '] (next :: texts)) :=
        stopsAt_cons rfl
      obtain ⟨last, hread⟩ := readComparator_append hc.spelling hstops
      have hskip : trimSpaces (' ' :: join [',', ' '] (next :: texts)) =
          join [',', ' '] (next :: texts) := hnext.trimSpaces_join texts
      have hrest := ih (List.cons_ne_nil _ _) (Nat.le_of_succ_le_succ fits)
      have htrim : trimSpaces (',' :: ' ' :: join [',', ' '] (next :: texts)) =
          ',' :: ' ' :: join [',', ' '] (next :: texts) := rfl
      rw [htrim] at hread
      rw [join_cons_cons, List.cons_append, List.cons_append, List.nil_append, readComparators, hread]
      simp only [hskip, hrest]
      rfl

theorem readStrict_join {texts : List (List Char)} {comparators : List Comparator}
    (h : List.Forall₂ (fun cs c => Comparator.IsTrimmed cs c) texts comparators) (nonempty : texts ≠ [])
    (fits : comparators.length ≤ comparatorLimit) :
    Requirement.readStrict (join [',', ' '] texts) = .ok ⟨comparators⟩ := by
  have hread := readComparators_join h nonempty fits
  cases h with
  | nil => exact absurd rfl nonempty
  | @cons cs c texts comparators hc htexts =>
    obtain ⟨rest, hrest⟩ := exists_join_cons_eq_append [',', ' '] cs texts
    obtain ⟨d, tail, rfl, hd⟩ := hc.spelling.begins
    have hwild : readWildcard (join [',', ' '] ((d :: tail) :: texts)) = none := by
      rw [hrest]
      exact readWildcard_eq_none hd
    unfold Requirement.readStrict
    simp only [hc.trimSpaces_join texts, hwild, hread]
    rfl

/-- A constraint whose parts between commas spell comparators leniently is read as these. -/
theorem parseConstraint_of_lenient {constraint : String} {comparators : List Comparator}
    (h : List.Forall₂ (fun cs c => Comparator.IsLenientSpelling cs c)
      (splitOn ',' constraint.toList) comparators)
    (fits : comparators.length ≤ comparatorLimit) : parseConstraint constraint = .ok ⟨comparators⟩ := by
  have htrimmed : List.Forall₂ (fun cs c => Comparator.IsTrimmed cs c)
      ((splitOn ',' constraint.toList).map normalizeComparator) comparators :=
    List.forall₂_map_left_iff.2 (h.imp fun _ _ hc => hc.isTrimmed)
  have hne : (splitOn ',' constraint.toList).map normalizeComparator ≠ [] :=
    mt List.map_eq_nil_iff.1 (splitOn_ne_nil ',' constraint.toList)
  exact Run.mapError_eq_ok_iff.2 (readStrict_join htrimmed hne fits)

/-! ## Pieces -/

/-- What a constraint says between two commas: an operator, or none, and a version. -/
structure Piece where
  sign : List Char
  version : List Char

namespace Piece

def chars (p : Piece) : List Char := p.sign ++ p.version

structure IsProper (p : Piece) : Prop where
  sign : ∃ written, IsOperator p.sign written
  version : IsVersionText p.version

/-- How a piece may be laid out: with blanks around its operator and at its ends, and with a `v` directly
before its version. -/
inductive IsLaidOut (p : Piece) (cs : List Char) : Prop
  | mk {before between mark after : List Char}
      (text : cs = before ++ (p.sign ++ (between ++ (mark ++ (p.version ++ after)))))
      (hbefore : ∀ d ∈ before, isBlank d = true) (hbetween : ∀ d ∈ between, isBlank d = true)
      (hmark : mark = [] ∨ mark = ['v'] ∨ mark = ['V']) (hafter : ∀ d ∈ after, isBlank d = true)

/-- The comparator that a piece spells. -/
def Says (p : Piece) (c : Comparator) : Prop :=
  ∃ written, IsOperator p.sign written ∧ IsBody p.version written c

variable {p : Piece} {c : Comparator} {cs : List Char}

theorem Says.isProper (h : p.Says c) : p.IsProper := by
  obtain ⟨written, hsign, hbody⟩ := h
  exact ⟨⟨written, hsign⟩, hbody.isVersionText⟩

theorem forall_isProper {pieces : List Piece} {comparators : List Comparator}
    (h : List.Forall₂ Says pieces comparators) : ∀ p ∈ pieces, p.IsProper := by
  induction h with
  | nil => exact List.forall_mem_nil _
  | cons hp hpieces ih => exact List.forall_mem_cons.2 ⟨hp.isProper, ih⟩

theorem Says.isLenientSpelling (h : p.Says c) (laid : p.IsLaidOut cs) : c.IsLenientSpelling cs := by
  obtain ⟨written, hsign, hbody⟩ := h
  obtain ⟨text, hbefore, hbetween, hmark, hafter⟩ := laid
  exact ⟨text, hbefore, hsign, hbetween, hmark, hbody, hafter⟩

theorem IsProper.normalizeComparator_eq (h : p.IsProper) (laid : p.IsLaidOut cs) :
    normalizeComparator cs = p.chars := by
  obtain ⟨⟨written, hsign⟩, hversion⟩ := h
  obtain ⟨rfl, hbefore, hbetween, hmark, hafter⟩ := laid
  exact normalizeComparator_append hbefore hsign hbetween hmark hversion hafter

/-- A comparator that was read is a piece, laid out with spaces behind its operator alone. -/
theorem exists_of_isSpelling (h : c.IsSpelling cs) {before after : List Char}
    (hbefore : ∀ s ∈ before, (s == ' ') = true) (hafter : ∀ s ∈ after, (s == ' ') = true) :
    ∃ p : Piece, p.Says c ∧ p.IsLaidOut (before ++ (cs ++ after)) := by
  obtain ⟨rfl, hsign, hspaces, hbody⟩ := h
  rename_i sign spaces body written
  refine ⟨⟨sign, body⟩, ⟨written, hsign, hbody⟩, ?_, isBlank_of_spaces hbefore,
    isBlank_of_spaces hspaces, .inl rfl, isBlank_of_spaces hafter⟩
  simp

end Piece

/-- A constraint that consists of pieces, however these are laid out. -/
structure AreLaidOut (pieces : List Piece) (cs : List Char) : Prop where
  proper : ∀ p ∈ pieces, p.IsProper
  laid : List.Forall₂ Piece.IsLaidOut pieces (splitOn ',' cs)

/-- Whatever the layout, normalizing leaves the pieces, with a comma and a space between. -/
theorem normalizeConstraint_of_areLaidOut {pieces : List Piece} {cs : List Char}
    (h : AreLaidOut pieces cs) :
    normalizeConstraint cs = join [',', ' '] (pieces.map Piece.chars) := by
  obtain ⟨proper, laid⟩ := h
  have hmap : (splitOn ',' cs).map normalizeComparator = pieces.map Piece.chars := by
    generalize splitOn ',' cs = parts at laid ⊢
    induction laid with
    | nil => rfl
    | cons hp hlaid ih =>
      obtain ⟨hproper, proper⟩ := List.forall_mem_cons.1 proper
      rw [List.map_cons, List.map_cons, hproper.normalizeComparator_eq hp, ih proper]
  rw [normalizeConstraint, hmap]

/-! ## Requirements as constraints -/

theorem length_le_of_readComparators {room : ℕ} {cs : List Char} {comparators : List Comparator}
    (h : readComparators room cs = .ok comparators) : comparators.length ≤ room := by
  induction room generalizing cs comparators with
  | zero => cases h
  | succ room ih =>
    obtain ⟨c, last, rest, -, ⟨-, rfl⟩ | ⟨tail, more, -, hmore, rfl⟩⟩ := exists_of_readComparators h
    · exact Nat.succ_le_succ (Nat.zero_le room)
    · exact Nat.succ_le_succ (ih hmore)

theorem exists_pieces_of_readComparators {room : ℕ} {cs : List Char} {comparators : List Comparator}
    (h : readComparators room (trimSpaces cs) = .ok comparators) :
    ∃ pieces, List.Forall₂ Piece.Says pieces comparators ∧
      List.Forall₂ Piece.IsLaidOut pieces (splitOn ',' cs) := by
  induction room generalizing cs comparators with
  | zero => cases h
  | succ room ih =>
    obtain ⟨c, last, rest, hread, hrest⟩ := exists_of_readComparators h
    obtain ⟨front, after, hcs, hspelling, rfl⟩ := exists_of_readComparator hread
    have hspaces (cs : List Char) : ∀ s ∈ cs.takeWhile (· == ' '), (s == ' ') = true :=
      fun s => List.mem_takeWhile_imp
    have hcomma (cs : List Char) := comma_notMem_of_isBlank (isBlank_of_spaces (hspaces cs))
    -- the text up to where the reading of the comparator stopped
    obtain ⟨p, hp, hlaid⟩ := Piece.exists_of_isSpelling hspelling (hspaces cs) (hspaces after)
    have hpart : ',' ∉ cs.takeWhile (· == ' ') ++ (front ++ after.takeWhile (· == ' ')) := by
      simp [hcomma, hspelling.comma_notMem]
    have htext : cs = (cs.takeWhile (· == ' ') ++ (front ++ after.takeWhile (· == ' '))) ++
        trimSpaces after := by
      calc cs = cs.takeWhile (· == ' ') ++ trimSpaces cs := List.takeWhile_append_dropWhile.symm
        _ = cs.takeWhile (· == ' ') ++ (front ++ (after.takeWhile (· == ' ') ++ trimSpaces after)) := by
          rw [hcs, trimSpaces, List.takeWhile_append_dropWhile]
        _ = _ := by simp only [List.append_assoc]
    rcases hrest with ⟨hnil, rfl⟩ | ⟨tail, more, hcons, hmore, rfl⟩
    · rw [hnil, List.append_nil] at htext
      rw [htext, splitOn_of_notMem hpart]
      exact ⟨[p], .cons hp .nil, .cons hlaid .nil⟩
    · obtain ⟨pieces, hsays, hlays⟩ := ih hmore
      rw [hcons] at htext
      rw [htext, splitOn_append hpart]
      exact ⟨p :: pieces, .cons hp hsays, .cons hlaid hlays⟩

/-- Which requirement pieces make up: a wildcard alone that of no comparators, and any others that of the
comparators that they spell. -/
inductive Requirement.IsSaidBy : Requirement → List Piece → Prop
  | wildcard {w : Char} (hw : IsWildcard w) : IsSaidBy ⟨[]⟩ [⟨[], [w]⟩]
  | comparators {pieces : List Piece} {comparators : List Comparator}
      (h : List.Forall₂ Piece.Says pieces comparators) (fits : comparators.length ≤ comparatorLimit) :
      IsSaidBy ⟨comparators⟩ pieces

theorem forall₂_isLenientSpelling {pieces : List Piece} {parts : List (List Char)}
    {comparators : List Comparator} (h : List.Forall₂ Piece.Says pieces comparators)
    (laid : List.Forall₂ Piece.IsLaidOut pieces parts) :
    List.Forall₂ (fun cs c => Comparator.IsLenientSpelling cs c) parts comparators := by
  induction h generalizing parts with
  | nil =>
    cases laid
    exact .nil
  | cons hp hpieces ih =>
    cases laid with
    | cons hlaid laid => exact .cons (hp.isLenientSpelling hlaid) (ih laid)

/-- A constraint is read as what its pieces say, whatever their layout. -/
theorem parseConstraint_of_isSaidBy {constraint : String} {pieces : List Piece} {r : Requirement}
    (laid : AreLaidOut pieces constraint.toList) (h : r.IsSaidBy pieces) :
    parseConstraint constraint = .ok r := by
  cases h with
  | wildcard hw =>
    have hread : Requirement.readStrict (normalizeConstraint constraint.toList) = .ok ⟨[]⟩ := by
      rw [normalizeConstraint_of_areLaidOut laid]
      rcases hw with rfl | rfl | rfl <;> rfl
    exact Run.mapError_eq_ok_iff.2 hread
  | comparators h fits => exact parseConstraint_of_lenient (forall₂_isLenientSpelling h laid.laid) fits

theorem isVersionText_wildcard {w : Char} (hw : IsWildcard w) : IsVersionText [w] := by
  refine ⟨⟨w, rfl, .inr hw⟩, stopsAt_cons ?_⟩
  rcases hw with rfl | rfl | rfl <;> decide

theorem areLaidOut_wildcard {before after : List Char} {w : Char} (hw : IsWildcard w)
    (hbefore : ∀ s ∈ before, (s == ' ') = true) (hafter : ∀ s ∈ after, (s == ' ') = true) :
    AreLaidOut [⟨[], [w]⟩] (before ++ w :: after) := by
  have hcomma : ',' ≠ w := by rcases hw with rfl | rfl | rfl <;> decide
  have hpart : ',' ∉ before ++ w :: after := by
    simp [comma_notMem_of_isBlank (isBlank_of_spaces hbefore), hcomma,
      comma_notMem_of_isBlank (isBlank_of_spaces hafter)]
  refine ⟨List.forall_mem_singleton.2 ⟨⟨none, .absent⟩, isVersionText_wildcard hw⟩, ?_⟩
  rw [splitOn_of_notMem hpart]
  exact .cons ⟨rfl, isBlank_of_spaces hbefore, List.forall_mem_nil _, .inl rfl,
    isBlank_of_spaces hafter⟩ .nil

/-- Requirements are laid out in pieces. -/
theorem exists_pieces_of_readStrict {cs : List Char} {r : Requirement}
    (h : Requirement.readStrict cs = .ok r) : ∃ pieces, AreLaidOut pieces cs ∧ r.IsSaidBy pieces := by
  unfold Requirement.readStrict at h
  dsimp only at h
  split at h
  · rename_i w rest hw
    obtain ⟨hcs, hw⟩ := readWildcard_eq_some_iff.1 hw
    split at h
    · rename_i hrest
      obtain rfl := Except.ok.inj h
      have hsplit : cs = cs.takeWhile (· == ' ') ++ w :: rest := by
        rw [← hcs]
        exact List.takeWhile_append_dropWhile.symm
      have hlaid := areLaidOut_wildcard hw (fun s => List.mem_takeWhile_imp (l := cs))
        (List.dropWhile_eq_nil_iff.1 hrest)
      rw [← hsplit] at hlaid
      exact ⟨_, hlaid, .wildcard hw⟩
    · cases h
    · cases h
  · obtain ⟨comparators, hread, rfl⟩ := Run.except_map_eq_ok_iff.1 h
    obtain ⟨pieces, hsays, hlaid⟩ := exists_pieces_of_readComparators hread
    exact ⟨pieces, ⟨Piece.forall_isProper hsays, hlaid⟩,
      .comparators hsays (length_le_of_readComparators hread)⟩

/-! ## The text of a requirement -/

theorem Comparator.IsLenientSpelling.prepend {before cs : List Char} {c : Comparator}
    (h : c.IsLenientSpelling cs) (hblank : ∀ d ∈ before, isBlank d = true) :
    c.IsLenientSpelling (before ++ cs) := by
  obtain ⟨text, hbefore, hsign, hbetween, hmark, hbody, hafter⟩ := h
  exact ⟨by rw [text, List.append_assoc], List.forall_mem_append.2 ⟨hblank, hbefore⟩, hsign, hbetween,
    hmark, hbody, hafter⟩

/-- Texts of comparators stay such if they are joined with commas and spaces, and split again. -/
theorem forall₂_splitOn_join {before : List Char} {texts : List (List Char)}
    {comparators : List Comparator}
    (h : List.Forall₂ (fun cs c => Comparator.IsLenientSpelling cs c) texts comparators)
    (nonempty : texts ≠ []) (hblank : ∀ d ∈ before, isBlank d = true) :
    List.Forall₂ (fun cs c => Comparator.IsLenientSpelling cs c)
      (splitOn ',' (before ++ join [',', ' '] texts)) comparators := by
  induction h generalizing before with
  | nil => exact absurd rfl nonempty
  | @cons cs c texts comparators hc htexts ih =>
    have hcs := hc.prepend hblank
    cases htexts with
    | nil =>
      change List.Forall₂ _ (splitOn ',' (before ++ cs)) [c]
      rw [splitOn_of_notMem hcs.comma_notMem]
      exact .cons hcs .nil
    | @cons next c' texts comparators hnext htexts =>
      have hrest := ih (List.cons_ne_nil _ _) (List.forall_mem_singleton.2 (by decide) : ∀ d ∈ [' '], _)
      have hjoin : before ++ join [',', ' '] (cs :: next :: texts) =
          (before ++ cs) ++ ',' :: ([' '] ++ join [',', ' '] (next :: texts)) := by
        rw [join_cons_cons]
        simp
      rw [hjoin, splitOn_append hcs.comma_notMem]
      exact .cons hcs hrest

/-- A requirement that was read is read back from its text. -/
theorem parseConstraint_requirement_text {constraint : String} {r : Requirement}
    (h : parseConstraint constraint = .ok r) : parseConstraint r.text = .ok r := by
  obtain ⟨comparators⟩ := r
  by_cases hnil : comparators = []
  · subst hnil
    rfl
  · have hread := (comparators_of_parseConstraint h).resolve_left hnil
    have hformed := isWellFormed_of_parseConstraint h
    refine parseConstraint_of_lenient ?_ (length_le_of_readComparators hread)
    have htext : (Requirement.text ⟨comparators⟩).toList =
        [] ++ join [',', ' '] (comparators.map Comparator.chars) := by
      rw [Requirement.text, String.toList_ofList, Requirement.chars, if_neg hnil, List.nil_append]
    rw [htext]
    refine forall₂_splitOn_join (List.forall₂_map_left_iff.2 ?_) (mt List.map_eq_nil_iff.1 hnil)
      (List.forall_mem_nil _)
    exact List.forall₂_same.2 fun c hc => (hformed c hc).isLenientSpelling

/-! ## Constraints extend requirements -/

/-- A text that is a requirement is a constraint that says the same; it is laid out in pieces, one for each
comparator, or one for a wildcard. Any other layout of the pieces of a constraint is read alike: with
other blanks around commas, operators and versions, and with a `v` directly before any version or
without. And the text of what was read is read back. -/
theorem constraints_extend_requirements (constraint : String) :
    (∀ r, Requirement.readStrict constraint.toList = .ok r →
      parseConstraint constraint = .ok r ∧
        ∃ pieces, AreLaidOut pieces constraint.toList ∧ r.IsSaidBy pieces) ∧
    (∀ pieces, AreLaidOut pieces constraint.toList →
      ∀ constraint', AreLaidOut pieces constraint'.toList →
        ∀ r, parseConstraint constraint' = .ok r ↔ parseConstraint constraint = .ok r) ∧
    ∀ r, parseConstraint constraint = .ok r → parseConstraint r.text = .ok r := by
  refine ⟨fun r h => ?_, fun pieces laid constraint' laid' r => ?_,
    fun r => parseConstraint_requirement_text⟩
  · obtain ⟨pieces, laid, hsays⟩ := exists_pieces_of_readStrict h
    exact ⟨parseConstraint_of_isSaidBy laid hsays, pieces, laid, hsays⟩
  · unfold parseConstraint
    rw [Run.mapError_eq_ok_iff, Run.mapError_eq_ok_iff, normalizeConstraint_of_areLaidOut laid,
      normalizeConstraint_of_areLaidOut laid']

/-- Blanks of any kind may stand in a constraint; a wildcard behind an operator is not written back. -/
example :
    (parseConstraint "\t>= V1.2.x\u2003,<\nv3.0.0-rc.1").toOption.map Requirement.text =
      some ">=1.2, <3.0.0-rc.1" := by
  decide +kernel

end ClusterPackages
