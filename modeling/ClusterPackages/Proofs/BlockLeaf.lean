import ClusterPackages.Proofs.QuotedLeaf

/-! Block leaves. The lines of a block are indented alike, so its reader goes over all of them, and
whatever line ends the text has, nothing is left behind it. -/

namespace ClusterPackages.Yaml

open Text

/-- Characters inside a line of a block. -/
def IsLine (l : List Char) : Prop := l ≠ [] ∧ ∀ x ∈ l, isBreak x = false ∧ x ≠ '\t'

/-- Lines indented alike, with empty lines between them; the last one need not be ended. -/
inductive Lines (n : ℕ) : List Char → Prop
  | nil : Lines n []
  | empty {x : Char} {rest : List Char} (hx : isBreak x = true) (hreturn : x ≠ '\r') (h : Lines n rest) :
    Lines n (x :: rest)
  | last {l : List Char} (hl : IsLine l) : Lines n (indentation n ++ l)
  | line {x : Char} {l rest : List Char} (hl : IsLine l) (hx : isBreak x = true) (hreturn : x ≠ '\r')
    (h : Lines n rest) : Lines n (indentation n ++ (l ++ x :: rest))

/-! ## Reading -/

section Reading

variable {n : ℕ} {c : Cursor}

theorem rest_advance_indentation {rest : List Char} (hc : c.rest = indentation n ++ rest) :
    (c.advance n).rest = rest := by
  have hnext := Cursor.rest_advance_append hc
  rwa [indentation, List.length_replicate] at hnext

theorem blockBreaks_end (hc : c.rest = []) (column fuel widest : ℕ) (breaks : List Char) :
    ∃ w, blockBreaks column fuel widest breaks c = some (w, breaks, c) := by
  cases fuel with
  | zero => exact ⟨widest, rfl⟩
  | succ fuel =>
    refine ⟨max widest c.column, ?_⟩
    rw [blockBreaks, hc]
    simp [hc, Cursor.advance_zero]

theorem blockBreaks_empty {x : Char} {rest : List Char} (hx : isBreak x = true) (hreturn : x ≠ '\r')
    (hcolumn : c.column = 0) (hc : c.rest = x :: rest) (fuel widest : ℕ) (breaks : List Char) :
    ∃ w b, blockBreaks n (fuel + 1) widest breaks c =
      blockBreaks n fuel w b ⟨rest, c.index + 1, c.line + 1, 0⟩ := by
  have hblank : (x == ' ') = false := beq_eq_false_iff_ne.2 fun h => absurd (h ▸ hx) (by decide)
  have htab : (x == '\t') = false := beq_eq_false_iff_ne.2 fun h => absurd (h ▸ hx) (by decide)
  refine ⟨max widest 0, breaks ++ c.lineBreak, ?_⟩
  rw [blockBreaks, hc]
  simp only [List.takeWhile_cons, hblank, Bool.false_eq_true, if_false, List.length_nil, Nat.zero_min,
    ite_self, Cursor.advance_zero, hc, htab, Bool.false_and, hx, if_true, hcolumn,
    Cursor.nextLine_of_isBreak hx hreturn hc]

/-- A line ends the empty lines, if its indentation is known or it begins without more blanks. -/
theorem blockBreaks_line {column : ℕ} {l rest : List Char} (hl : IsLine l) (hcolumn : c.column = 0)
    (hc : c.rest = indentation n ++ (l ++ rest)) (hn : 0 < n)
    (hknown : column = n ∨ column = 0 ∧ l.head? ≠ some ' ') (fuel widest : ℕ) (breaks : List Char) :
    blockBreaks column (fuel + 1) widest breaks c = some (max widest n, breaks, c.advance n) := by
  obtain ⟨x, xs, rfl⟩ := List.exists_cons_of_ne_nil hl.1
  obtain ⟨hbreak, htab⟩ := hl.2 x List.mem_cons_self
  have hnext := rest_advance_indentation hc
  have htake : (c.rest.takeWhile (· == ' ')).length =
      n + ((x :: (xs ++ rest)).takeWhile (· == ' ')).length := by
    rw [hc, List.takeWhile_append_of_pos (by simp [indentation]), List.length_append, indentation,
      List.length_replicate]
    rfl
  have hwidth : (if column = 0 then (c.rest.takeWhile (· == ' ')).length
      else min (c.rest.takeWhile (· == ' ')).length (column - c.column)) = n := by
    rw [htake, hcolumn]
    rcases hknown with rfl | ⟨rfl, hblank⟩
    · rw [if_neg (by omega)]
      omega
    · have hx : (x == ' ') = false := by simpa using hblank
      simp [hx]
  have hcol : (c.advance n).column = n := by simp [Cursor.advance, hcolumn]
  rw [blockBreaks]
  simp only [hwidth, hnext, hcol, List.cons_append, beq_eq_false_iff_ne.2 htab, hbreak, Bool.false_and,
    Bool.false_eq_true, if_false]

theorem blockLines_end (hc : c.rest = []) (fuel : ℕ) (text lineEnd breaks : List Char)
    (afterBlank : Bool) :
    blockLines true n fuel text lineEnd breaks afterBlank c = some (text, lineEnd, breaks, c) := by
  cases fuel with
  | zero => rfl
  | succ fuel => rw [blockLines, if_pos (.inr hc)]

theorem blockLines_line {l rest : List Char} (hl : ∀ x ∈ l, isBreak x = false) (hne : l ≠ [])
    (hrest : StopsAt (fun x => !isBreak x) rest) (hcolumn : c.column = n) (hc : c.rest = l ++ rest)
    {w : ℕ} {b : List Char} {c' : Cursor}
    (hbreaks : blockBreaks n (rest.length + 1) 0 [] (c.advance l.length).nextLine = some (w, b, c'))
    (fuel : ℕ) (text lineEnd breaks : List Char) (afterBlank : Bool) :
    ∃ text' lineEnd' afterBlank', blockLines true n (fuel + 1) text lineEnd breaks afterBlank c =
      blockLines true n fuel text' lineEnd' b afterBlank' c' := by
  have hline : c.rest.takeWhile (fun x => !isBreak x) = l := by
    rw [hc, takeWhile_cut (fun x hx => by simp [hl x hx]) hrest]
  have hnext : (c.advance l.length).rest = rest := Cursor.rest_advance_append hc
  refine ⟨text ++ (lineEnd ++ breaks) ++ l, (c.advance l.length).lineBreak, c.rest.head?.any isSpace, ?_⟩
  rw [blockLines, if_neg (by simp [hcolumn, hc, hne])]
  simp only [Bool.not_true, Bool.false_and, Bool.false_eq_true, if_false, hline, hnext, hbreaks,
    Option.bind_eq_bind, Option.bind_some]

/-- From the start of a line on, the empty lines and then all other lines are gone over. -/
theorem blockLines_of_lines {cs : List Char} (h : Lines n cs) (hn : 0 < n) (hcolumn : c.column = 0)
    (hc : c.rest = cs) {fuel : ℕ} (hfuel : cs.length < fuel) (widest : ℕ) (breaks : List Char) :
    ∃ w b c', blockBreaks n fuel widest breaks c = some (w, b, c') ∧ c'.rest.length ≤ cs.length ∧
      ∀ fuel', c'.rest.length < fuel' → ∀ text lineEnd afterBlank, ∃ text' lineEnd' breaks' c'',
        blockLines true n fuel' text lineEnd b afterBlank c' = some (text', lineEnd', breaks', c'') ∧
          c''.rest = [] := by
  induction h generalizing c fuel widest breaks with
  | nil =>
    obtain ⟨w, hread⟩ := blockBreaks_end hc n fuel widest breaks
    exact ⟨w, breaks, c, hread, by simp [hc], fun fuel' _ text lineEnd afterBlank =>
      ⟨_, _, _, c, blockLines_end hc fuel' text lineEnd breaks afterBlank, hc⟩⟩
  | @empty x rest hx hreturn _ ih =>
    obtain ⟨fuel, rfl⟩ : ∃ k, fuel = k + 1 := ⟨fuel - 1, by omega⟩
    obtain ⟨w, b, hempty⟩ := blockBreaks_empty (n := n) hx hreturn hcolumn hc fuel widest breaks
    obtain ⟨w', b', c', hread, hlength, hlines⟩ := ih (c := ⟨rest, c.index + 1, c.line + 1, 0⟩) rfl rfl
      (show rest.length < fuel by simp at hfuel; omega) w b
    exact ⟨w', b', c', by rw [hempty, hread], by simp; omega, hlines⟩
  | @last l hl =>
    obtain ⟨fuel, rfl⟩ : ∃ k, fuel = k + 1 := ⟨fuel - 1, by omega⟩
    have hread := blockBreaks_line hl hcolumn (hc.trans (by rw [List.append_nil])) hn (.inl rfl) fuel widest
      breaks
    have hnext := rest_advance_indentation hc
    refine ⟨_, _, _, hread, by simp [hnext], fun fuel' hfuel' text lineEnd afterBlank => ?_⟩
    obtain ⟨fuel', rfl⟩ : ∃ k, fuel' = k + 1 := ⟨fuel' - 1, by omega⟩
    have hend : ((c.advance n).advance l.length).nextLine.rest = [] := by
      have : ((c.advance n).advance l.length).rest = [] :=
        Cursor.rest_advance_append (hnext.trans (List.append_nil l).symm)
      rw [Cursor.nextLine, this]
      exact this
    obtain ⟨w, hbreaks⟩ := blockBreaks_end hend n 1 0 []
    obtain ⟨text', lineEnd', afterBlank', hline⟩ := blockLines_line (fun x hx => (hl.2 x hx).1) hl.1 stopsAt_nil
      (by simp [Cursor.advance, hcolumn]) (hnext.trans (List.append_nil l).symm) hbreaks fuel' text lineEnd
      breaks afterBlank
    exact ⟨_, _, _, _, hline.trans (blockLines_end hend _ _ _ _ _), hend⟩
  | @line x l rest hl hx hreturn _ ih =>
    obtain ⟨fuel, rfl⟩ : ∃ k, fuel = k + 1 := ⟨fuel - 1, by omega⟩
    have hread := blockBreaks_line hl hcolumn hc hn (.inl rfl) fuel widest breaks
    have hnext := rest_advance_indentation hc
    refine ⟨_, _, _, hread, by simp [hnext], fun fuel' hfuel' text lineEnd afterBlank => ?_⟩
    rw [hnext, List.length_append] at hfuel'
    obtain ⟨fuel', rfl⟩ : ∃ k, fuel' = k + 1 := ⟨fuel' - 1, by omega⟩
    have hbreak := Cursor.nextLine_of_isBreak hx hreturn (Cursor.rest_advance_append hnext)
    obtain ⟨w, b, c', hbreaks, hlength, hlines⟩ :=
      ih (c := ((c.advance n).advance l.length).nextLine) (by rw [hbreak]) (by rw [hbreak])
        (show rest.length < (x :: rest).length + 1 by rw [List.length_cons]; omega) 0 []
    obtain ⟨text', lineEnd', afterBlank', hline⟩ := blockLines_line (fun x hx => (hl.2 x hx).1) hl.1
      (stopsAt_cons (by simp [hx])) (by simp [Cursor.advance, hcolumn]) hnext hbreaks fuel' text lineEnd breaks
      afterBlank
    obtain ⟨text'', lineEnd'', breaks'', c'', hrest, hend⟩ := hlines fuel' (by simp at hfuel'; omega) text'
      lineEnd' afterBlank'
    exact ⟨text'', lineEnd'', breaks'', c'', hline.trans hrest, hend⟩

/-- A block whose indentation is given, or shown by its first line, ends with the text. -/
theorem blockText_of_lines {chomping : Chomping} {given : Option ℕ} {c₁ : Cursor} {body : List Char}
    (hheader : blockHeader c = some (chomping, given, c₁)) (hc : c₁.rest = '\n' :: body) (hn : 0 < n)
    (hlines : Lines n body)
    (hgiven : given = some n ∨ given = none ∧
      ∃ l rest, IsLine l ∧ l.head? ≠ some ' ' ∧ body = indentation n ++ (l ++ rest)) :
    ∃ text c', blockText true 0 c = some (text, c') ∧ c'.rest = [] := by
  have hskip : (c₁.skipWhile isSpace).skipComment = c₁ := by
    rw [Cursor.skipWhile_of_stopsAt (hc ▸ stopsAt_cons rfl), Cursor.skipComment_of_head (by simp [hc])]
  have hnext := Cursor.nextLine_of_isBreak (x := '\n') rfl (by decide) hc
  obtain ⟨w, b, c', hbreaks, -, hrest⟩ := blockLines_of_lines (c := c₁.nextLine) hlines hn (by rw [hnext])
    (by rw [hnext]) (Nat.lt_succ_self _) 0 []
  obtain ⟨text, lineEnd, breaks, c'', hread, hend⟩ := hrest _ (Nat.lt_succ_self _) [] [] false
  rw [blockText, hheader]
  simp only [Option.bind_eq_bind, Option.bind_some, hskip, hc, endsLine, show isBreak '\n' = true from rfl,
    Bool.not_true, Bool.false_eq_true, if_false]
  rcases hgiven with rfl | ⟨rfl, l, rest, hl, hblank, hbody⟩
  · have hcolumn : (max (0 : ℤ) 0).toNat + n = n := by simp
    rw [hnext] at hbreaks ⊢
    simp only [hcolumn, hbreaks, Option.bind_some, Nat.pos_iff_ne_zero.1 hn, if_false, hread]
    exact ⟨_, _, rfl, hend⟩
  · have hfirst (column : ℕ) (h : column = n ∨ column = 0 ∧ l.head? ≠ some ' ') :=
      blockBreaks_line (c := c₁.nextLine) hl (by rw [hnext]) (by rw [hnext, ← hbody]) hn h body.length 0 []
    rw [hfirst n (.inl rfl)] at hbreaks
    obtain ⟨rfl, rfl⟩ := Prod.mk.inj (Prod.mk.inj (Option.some.inj hbreaks)).2
    have hwidth : max (max (max 0 n) ((0 : ℤ) + 1).toNat) 1 = n := by
      simp only [Int.zero_add, Int.toNat_one]
      omega
    have hlength : c₁.nextLine.rest.length + 1 = body.length + 1 := by rw [hnext]
    rw [hlength]
    simp only [hfirst 0 (.inr ⟨rfl, hblank⟩), Option.bind_some, if_true, hwidth, hread]
    exact ⟨_, _, rfl, hend⟩

end Reading

/-! ## Writing -/

theorem blockGo_append {n : ℕ} {w : List Char} (hw : ∀ x ∈ w, isBreak x = false) (u : List Char) :
    block.go n false (w ++ u) = w ++ block.go n false u := by
  induction w with
  | nil => rfl
  | cons x w ih =>
    obtain ⟨hx, hw⟩ := List.forall_mem_cons.1 hw
    rw [List.cons_append, block.go, if_neg (by simp [hx]), ih hw]
    rfl

theorem blockGo_line {n : ℕ} {w : List Char} (hw : ∀ x ∈ w, isBreak x = false) (hne : w ≠ [])
    (u : List Char) : block.go n true (w ++ u) = indentation n ++ (w ++ block.go n false u) := by
  obtain ⟨x, w, rfl⟩ := List.exists_cons_of_ne_nil hne
  obtain ⟨hx, hw⟩ := List.forall_mem_cons.1 hw
  rw [List.cons_append, block.go, if_neg (by simp [hx]), blockGo_append hw]
  simp

theorem blockGo_breaks {n : ℕ} {g : List Char} (hg : ∀ x ∈ g, isBreak x = true) (hne : g ≠ [])
    (lineStart : Bool) (u : List Char) :
    block.go n lineStart (g ++ u) = g ++ block.go n true u := by
  induction g generalizing lineStart with
  | nil => exact absurd rfl hne
  | cons x g ih =>
    obtain ⟨hx, hg⟩ := List.forall_mem_cons.1 hg
    rw [List.cons_append, block.go, if_pos hx]
    cases g with
    | nil => rfl
    | cons y g => exact congrArg (x :: ·) (ih hg (List.cons_ne_nil _ _) true)

theorem Lines.breaks {n : ℕ} {g rest : List Char} (hg : ∀ x ∈ g, isBreak x = true ∧ x ≠ '\r')
    (h : Lines n rest) : Lines n (g ++ rest) := by
  induction g with
  | nil => exact h
  | cons x g ih =>
    obtain ⟨⟨hx, hreturn⟩, hg⟩ := List.forall_mem_cons.1 hg
    exact .empty hx hreturn (ih hg)

theorem lines_go {n : ℕ} {cs : List Char} (hcs : ∀ x ∈ cs, isWritable x = true) {tail : List Char}
    (htail : tail = [] ∨ tail = ['\n']) : Lines n (block.go n true cs ++ tail) := by
  have hline {w : List Char} (hw : ∀ x ∈ w, isWritable x = true) (hwb : ∀ x ∈ w, (!isBreak x) = true)
      (hne : w ≠ []) : IsLine w :=
    ⟨hne, fun x hx => ⟨by simpa using hwb x hx, fun heq => absurd (heq ▸ hw x hx) (by decide)⟩⟩
  have hend : Lines n tail := by
    rcases htail with rfl | rfl
    · exact .nil
    · exact .empty rfl (by decide) .nil
  induction cs using words_induction (fun c => !isBreak c) with
  | word w hw =>
    rcases eq_or_ne w [] with rfl | hne
    · exact hend
    · have hgo := blockGo_line (n := n) (fun x hx => by simpa using hw x hx) hne []
      rw [List.append_nil, block.go, List.append_nil] at hgo
      rw [hgo, List.append_assoc]
      rcases htail with rfl | rfl
      · exact (List.append_nil w).symm ▸ .last (hline hcs hw hne)
      · exact .line (hline hcs hw hne) rfl (by decide) .nil
  | gap w g u hw hg hgne hu ih =>
    have hwritable (x : Char) (hx : x ∈ g) : isWritable x = true := hcs x (by simp [hx])
    have hbreak : ∀ x ∈ g, isBreak x = true ∧ x ≠ '\r' := fun x hx =>
      ⟨by simpa using hg x hx, fun heq => absurd (heq ▸ hwritable x hx) (by decide)⟩
    have hrest := ih fun x hx => hcs x (by simp [hx])
    rcases eq_or_ne w [] with rfl | hne
    · rw [List.nil_append, blockGo_breaks (fun x hx => (hbreak x hx).1) hgne, List.append_assoc]
      exact hrest.breaks hbreak
    · obtain ⟨x, g, rfl⟩ := List.exists_cons_of_ne_nil hgne
      obtain ⟨hx, hgb⟩ := List.forall_mem_cons.1 hbreak
      rw [blockGo_line (fun x hx => by simpa using hw x hx) hne,
        blockGo_breaks (fun x hx => (hbreak x hx).1) hgne, List.append_assoc, List.append_assoc,
        List.append_assoc]
      exact .line (hline (fun x hx => hcs x (by simp [hx])) hw hne) hx.1 hx.2 (hrest.breaks hgb)

/-- The first line, if the text begins with one, shows the indentation. -/
theorem exists_first_line {n : ℕ} {cs : List Char} (hcs : ∀ x ∈ cs, isWritable x = true) (hne : cs ≠ [])
    (hfirst : cs.head?.any (fun c => c == ' ' || isBreak c) = false) :
    ∃ l rest, IsLine l ∧ l.head? ≠ some ' ' ∧ block.go n true cs = indentation n ++ (l ++ rest) := by
  obtain ⟨x, xs, rfl⟩ := List.exists_cons_of_ne_nil hne
  rw [List.head?_cons, Option.any_some, Bool.or_eq_false_iff] at hfirst
  obtain ⟨l, u, hl, hu⟩ : ∃ l u, (x :: xs).takeWhile (fun y => !isBreak y) = l ∧
    (x :: xs).dropWhile (fun y => !isBreak y) = u := ⟨_, _, rfl, rfl⟩
  have hline : ∀ y ∈ l, isBreak y = false := fun y hy => by
    rw [← hl] at hy
    simpa using List.mem_takeWhile_imp hy
  have hwritable : ∀ y ∈ l, isWritable y = true := fun y hy =>
    hcs y ((List.takeWhile_prefix _).subset (hl ▸ hy))
  have hjoin : l ++ u = x :: xs := by rw [← hl, ← hu, List.takeWhile_append_dropWhile]
  rw [List.takeWhile_cons_of_pos (by simp [hfirst.2])] at hl
  subst hl
  refine ⟨_, block.go n false u, ⟨List.cons_ne_nil _ _, fun y hy => ⟨hline y hy, fun heq => ?_⟩⟩, ?_, ?_⟩
  · exact absurd (heq ▸ hwritable y hy) (by decide)
  · simpa using hfirst.1
  · rw [← hjoin, blockGo_line hline (List.cons_ne_nil _ _)]

/-! ## Headers -/

theorem chompingMark_mem (cs : List Char) : chompingMark cs ∈ [[], ['-'], ['+']] := by
  rw [chompingMark]
  split
  · split_ifs <;> simp
  · split_ifs <;> simp
  · simp

theorem blockHeader_chomping {mark rest : List Char} (hmark : mark ∈ [[], ['-'], ['+']]) {c : Cursor}
    (hc : c.rest = mark ++ '\n' :: rest) :
    ∃ chomping c', blockHeader c = some (chomping, none, c') ∧ c'.rest = '\n' :: rest := by
  have hnext := Cursor.rest_advance_append hc
  rw [blockHeader, hc]
  simp only [List.mem_cons, List.not_mem_nil, or_false] at hmark
  rcases hmark with rfl | rfl | rfl
  · exact ⟨.clip, c, rfl, hc⟩
  · exact ⟨.strip, c.advance 1, rfl, hnext⟩
  · exact ⟨.keep, c.advance 1, rfl, hnext⟩

theorem blockHeader_given {mark rest : List Char} (hmark : mark ∈ [[], ['-'], ['+']]) {c : Cursor}
    (hc : c.rest = '2' :: mark ++ '\n' :: rest) :
    ∃ chomping c', blockHeader c = some (chomping, some indentStep, c') ∧ c'.rest = '\n' :: rest := by
  have hnext := Cursor.rest_advance_append hc
  rw [blockHeader, hc]
  simp only [List.mem_cons, List.not_mem_nil, or_false] at hmark
  rcases hmark with rfl | rfl | rfl
  · exact ⟨.clip, c.advance 1, rfl, hnext⟩
  · exact ⟨.strip, c.advance 2, rfl, hnext⟩
  · exact ⟨.keep, c.advance 2, rfl, hnext⟩

def blockMark (cs : List Char) : List Char :=
  if cs.head?.any (fun c => c == ' ' || isBreak c) then ['2'] else []

theorem block_eq (cs : List Char) : block indentStep cs =
    '|' :: (blockMark cs ++ (chompingMark cs ++ '\n' :: block.go indentStep true cs)) := by
  have hmark : (indentStep.repr).toList = ['2'] := by decide
  simp only [block, hmark, List.cons_append, List.append_assoc]
  rfl

/-- A block at the end of a text is read, and leaves nothing. -/
theorem blockText_block {cs : List Char} (h : isBlockWritable cs = true) {tail : List Char}
    (htail : tail = [] ∨ tail = ['\n']) {c : Cursor} (hc : '|' :: c.rest = block indentStep cs ++ tail) :
    ∃ text c', blockText true 0 c = some (text, c') ∧ c'.rest = [] := by
  rw [block_eq, List.cons_append, List.cons.injEq] at hc
  have hc := hc.2
  simp only [isBlockWritable, Bool.and_eq_true, Bool.not_eq_true', decide_eq_true_eq] at h
  obtain ⟨⟨hne, hescapes⟩, -⟩ := h
  have hwritable := isWritable_of_needsEscapes hescapes
  have hlines : Lines indentStep (block.go indentStep true cs ++ tail) := lines_go hwritable htail
  rw [blockMark] at hc
  split_ifs at hc with hfirst
  · obtain ⟨chomping, c₁, hheader, hrest⟩ := blockHeader_given (chompingMark_mem cs) (by simpa using hc)
    exact blockText_of_lines hheader hrest (by decide) hlines (.inl rfl)
  · obtain ⟨chomping, c₁, hheader, hrest⟩ := blockHeader_chomping (chompingMark_mem cs) (by simpa using hc)
    obtain ⟨l, rest, hl, hblank, hgo⟩ := exists_first_line (n := indentStep) hwritable hne (by simpa using hfirst)
    refine blockText_of_lines hheader hrest (by decide) hlines (.inr ⟨rfl, l, rest ++ tail, hl, hblank, ?_⟩)
    rw [hgo, List.append_assoc, List.append_assoc]

end ClusterPackages.Yaml
