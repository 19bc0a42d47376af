import ClusterPackages.Document.Yaml.Written
import ClusterPackages.Proofs.Cutting

/-! Plain leaves. A text without indicators that is written plain is read back word by word: the
blanks between two words are kept, and the line break behind the last one ends it. -/

namespace ClusterPackages.Text

/-- A text is a word, or begins with a word and a gap. -/
theorem words_induction (p : Char → Bool) {motive : List Char → Prop}
    (word : ∀ w, (∀ c ∈ w, p c = true) → motive w)
    (gap : ∀ w g u, (∀ c ∈ w, p c = true) → (∀ c ∈ g, p c = false) → g ≠ [] →
      StopsAt (fun c => !p c) u → motive u → motive (w ++ (g ++ u)))
    (cs : List Char) : motive cs := by
  induction h : cs.length using Nat.strongRecOn generalizing cs with
  | ind n ih =>
    have hw : ∀ c ∈ cs.takeWhile p, p c = true := fun _ => List.mem_takeWhile_imp
    have hcs : cs.takeWhile p ++ cs.dropWhile p = cs := List.takeWhile_append_dropWhile
    cases hrest : cs.dropWhile p with
    | nil =>
      rw [hrest, List.append_nil] at hcs
      exact word cs (hcs ▸ hw)
    | cons x t =>
      have hx : p x = false := stopsAt_dropWhile p cs x (by rw [hrest]; rfl)
      have hg : ∀ c ∈ (x :: t).takeWhile (fun c => !p c), p c = false := fun _ hc => by
        simpa using List.mem_takeWhile_imp hc
      have ht : (x :: t).takeWhile (fun c => !p c) ++ (x :: t).dropWhile (fun c => !p c) = x :: t :=
        List.takeWhile_append_dropWhile
      have hgne : (x :: t).takeWhile (fun c => !p c) ≠ [] := by simp [hx]
      have hlength := congrArg List.length ht
      rw [← hcs, hrest, ← ht]
      refine gap _ _ _ hw hg hgne (stopsAt_dropWhile _ _) (ih _ ?_ _ rfl)
      have := List.length_pos_iff.2 hgne
      rw [← h, ← hcs, hrest, List.length_append]
      rw [List.length_append] at hlength
      omega

end ClusterPackages.Text

namespace ClusterPackages.Yaml

open Text

namespace Cursor

theorem advance_advance (c : Cursor) (m n : ℕ) : (c.advance m).advance n = c.advance (m + n) := by
  simp [advance, List.drop_drop, Nat.add_assoc]

theorem advance_zero (c : Cursor) : c.advance 0 = c := rfl

theorem rest_advance_append {c : Cursor} {front rest : List Char} (h : c.rest = front ++ rest) :
    (c.advance front.length).rest = rest := by
  simp [advance, h]

theorem nextLine_of_isBreak {x : Char} {rest : List Char} (hx : isBreak x = true) (hreturn : x ≠ '\r')
    {c : Cursor} (hc : c.rest = x :: rest) : c.nextLine = ⟨rest, c.index + 1, c.line + 1, 0⟩ := by
  rw [nextLine, hc]
  split
  · rename_i heq
    exact absurd (List.cons.inj heq).1 hreturn
  · rename_i heq
    obtain ⟨rfl, rfl⟩ := List.cons.inj heq
    exact if_pos hx
  · cases ‹_ :: _ = []›

theorem skipWhile_of_stopsAt {p : Char → Bool} {c : Cursor} (h : StopsAt p c.rest) : c.skipWhile p = c := by
  have htake : c.rest.takeWhile p = [] := by
    simpa using takeWhile_cut (List.forall_mem_nil _) h
  rw [skipWhile, htake]
  rfl

theorem skipComment_of_head {c : Cursor} (h : c.rest.head? ≠ some '#') : c.skipComment = c := by
  rw [skipComment]
  split
  · rename_i heq
    exact absurd (by rw [heq]; rfl) h
  · rfl

end Cursor

/-! ## Words -/

/-- Characters of a line that end no word. -/
def isInWord (c : Char) : Bool := !isSpace c && !isBreak c

theorem endsWord_append_break {cs more : List Char} (h : endsWord (cs ++ '\n' :: more) = true) :
    endsWrittenWord cs = true := by
  cases cs with
  | nil => rfl
  | cons c cs => exact Bool.or_eq_true_iff.2 (.inl h)

theorem plainWord_eq {cs : List Char} (hbreak : ∀ c ∈ cs, isBreak c = false) {afterBlank : Bool}
    (hinner : hasInnerIndicator afterBlank cs = false) (more : List Char) :
    plainWord false (cs ++ '\n' :: more) = some (cs.takeWhile isInWord) := by
  induction cs generalizing afterBlank with
  | nil => rfl
  | cons c cs ih =>
    obtain ⟨hc, hcs⟩ := List.forall_mem_cons.1 hbreak
    rw [hasInnerIndicator, Bool.or_eq_false_iff, Bool.or_eq_false_iff] at hinner
    obtain ⟨⟨hcolon, -⟩, hrest⟩ := hinner
    rw [List.cons_append, plainWord.eq_def]
    dsimp only
    cases hspace : isSpace c with
    | true => simp [isInWord, hspace]
    | false =>
      have hend : (c == ':' && endsWord (cs ++ '\n' :: more)) = false := by
        rw [Bool.and_eq_false_iff] at hcolon ⊢
        exact hcolon.imp_right fun h => Bool.eq_false_iff.2 fun hw =>
          absurd (endsWord_append_break hw) (by simp [h])
      simp [hc, hend, isInWord, hspace, ih hcs hrest]

theorem hasInnerIndicator_of_append {front sp u : List Char} (hsp : ∀ x ∈ sp, isSpace x = true)
    (hne : sp ≠ []) {afterBlank : Bool} (h : hasInnerIndicator afterBlank (front ++ (sp ++ u)) = false) :
    hasInnerIndicator true u = false := by
  induction front generalizing afterBlank with
  | nil =>
    induction sp generalizing afterBlank with
    | nil => exact absurd rfl hne
    | cons x sp ih =>
      obtain ⟨hx, hsp⟩ := List.forall_mem_cons.1 hsp
      rw [List.nil_append, List.cons_append, hasInnerIndicator, Bool.or_eq_false_iff, hx] at h
      cases sp with
      | nil => exact h.2
      | cons y sp => exact ih hsp (by simp) h.2
  | cons y front ih =>
    rw [List.cons_append, hasInnerIndicator, Bool.or_eq_false_iff] at h
    exact ih h.2

/-! ## Gaps -/

/-- A word begins here, or the text ends. -/
def StopsGap (rest : List Char) : Prop := StopsAt (fun c => isSpace c || isBreak c) rest

namespace Gap

theorem read_of_stopsGap {c : Cursor} (h : StopsGap c.rest) (fuel column : ℕ) (g : Gap) :
    read fuel column g c = some (g, c) := by
  cases fuel with
  | zero => rfl
  | succ fuel =>
    rw [read]
    split
    · rfl
    · rename_i x rest hrest
      obtain ⟨hspace, hbreak⟩ := Bool.or_eq_false_iff.1 (h x (by rw [hrest]; rfl))
      simp [hspace, hbreak]

theorem read_spaces {sp rest : List Char} (hsp : ∀ x ∈ sp, isSpace x = true) (hrest : StopsGap rest)
    {fuel : ℕ} (hfuel : sp.length ≤ fuel) (column : ℕ) (blanks : List Char) {c : Cursor}
    (hc : c.rest = sp ++ rest) :
    read fuel column ⟨blanks, Option.none, []⟩ c =
      some (⟨blanks ++ sp, Option.none, []⟩, c.advance sp.length) := by
  induction sp generalizing fuel blanks c with
  | nil =>
    rw [read_of_stopsGap (hc ▸ hrest), List.append_nil]
    rfl
  | cons x sp ih =>
    obtain ⟨hx, hsp⟩ := List.forall_mem_cons.1 hsp
    obtain ⟨fuel, rfl⟩ : ∃ k, fuel = k + 1 := ⟨fuel - 1, by simp at hfuel; omega⟩
    have hnext : (c.advance 1).rest = sp ++ rest := by simp [Cursor.advance, hc]
    rw [read, hc]
    simp only [List.cons_append, hx, if_true]
    rw [ih hsp (by simpa using hfuel) (blanks ++ [x]) hnext, Cursor.advance_advance]
    simp [Nat.add_comm]

theorem read_break {more : List Char} (hmore : StopsGap more) (fuel column : ℕ) {c : Cursor}
    (hc : c.rest = '\n' :: more) :
    read (fuel + 1) column Gap.none c =
      some (⟨[], some ['\n'], []⟩, ⟨more, c.index + 1, c.line + 1, 0⟩) := by
  have hline : c.lineBreak = ['\n'] := by
    rw [Cursor.lineBreak, hc]
    rfl
  have hnext := Cursor.nextLine_of_isBreak (x := '\n') rfl (by decide) hc
  rw [read, hc]
  simp only [Gap.none, hline, hnext]
  exact read_of_stopsGap hmore fuel column _

end Gap

/-! ## Texts -/

/-- One word: what comes before it is folded, and the gap behind it is read. -/
theorem plainText_word {w t : List Char} {c c' : Cursor} {column : ℕ} (hcolumn : 0 < column)
    (hright : column ≤ c.column) (hsharp : c.rest.head? ≠ some '#') (hrest : c.rest = w ++ t)
    (hword : plainWord false (w ++ t) = some w) (hne : w ≠ []) (hends : endsWord t = true) (htne : t ≠ [])
    {gap' : Gap} (hgap : Gap.read (t.length + 1) column Gap.none (c.advance w.length) = some (gap', c'))
    (fuel : ℕ) (acc : List Char) (gap : Gap) :
    plainText false column (fuel + 1) acc gap c =
      if c'.column < column then some (acc ++ gap.folded ++ w, gap', c')
      else plainText false column fuel (acc ++ gap.folded ++ w) gap' c' := by
  have hmark : (c.atDocumentMark || decide (c.rest.head? = some '#')) = false := by
    have : c.column ≠ 0 := by omega
    simp [Cursor.atDocumentMark, this, hsharp]
  have hnext : (c.advance w.length).rest = t := Cursor.rest_advance_append hrest
  rw [plainText, if_neg (by simp [hmark]), hrest, hword, Option.bind_eq_bind, Option.bind_some,
    if_neg hne]
  simp only [hnext, htne, hends, hgap, Bool.not_true, Bool.false_eq_true, or_self, if_false,
    Bool.not_false, Bool.true_and, decide_eq_true_eq, Option.bind_eq_bind, Option.bind_some]

/-- A text that needs no quotes, whatever it says: one line, without an indicator inside and without
white space around it. -/
structure IsPlain (cs : List Char) : Prop where
  nonempty : cs ≠ []
  noBreak : ∀ c ∈ cs, isBreak c = false
  noIndicator : hasInnerIndicator true cs = false
  begins : StopsAt isSpace cs
  ends : ∀ c, cs.getLast? = some c → isSpace c = false

namespace IsPlain

variable {cs w g u : List Char}

theorem head?_ne_sharp (h : IsPlain cs) (rest : List Char) : (cs ++ rest).head? ≠ some '#' := by
  obtain ⟨x, xs, rfl⟩ := List.exists_cons_of_ne_nil h.nonempty
  have hinner := h.noIndicator
  rw [hasInnerIndicator, Bool.or_eq_false_iff, Bool.or_eq_false_iff] at hinner
  simpa using hinner.1.2

theorem isSpace_of_mem_gap (h : IsPlain (w ++ (g ++ u))) (hg : ∀ c ∈ g, isInWord c = false) :
    ∀ c ∈ g, isSpace c = true := fun c hc => by
  simpa [isInWord, h.noBreak c (by simp [hc])] using hg c hc

theorem word_ne_nil (h : IsPlain (w ++ (g ++ u))) (hg : ∀ c ∈ g, isInWord c = false) (hne : g ≠ []) :
    w ≠ [] := by
  rintro rfl
  obtain ⟨z, zs, rfl⟩ := List.exists_cons_of_ne_nil hne
  exact absurd (h.begins z rfl) (by simp [h.isSpace_of_mem_gap hg z (by simp)])

/-- What follows a gap is a text of this kind again. -/
theorem afterGap (h : IsPlain (w ++ (g ++ u))) (hg : ∀ c ∈ g, isInWord c = false) (hne : g ≠ [])
    (hu : StopsAt (fun c => !isInWord c) u) : IsPlain u where
  nonempty := by
    rintro rfl
    obtain ⟨z, hz⟩ := Option.isSome_iff_exists.1 (List.getLast?_isSome.2 hne)
    have := h.ends z (by simp [List.getLast?_append, hz])
    simp [h.isSpace_of_mem_gap hg z (List.mem_of_getLast? hz)] at this
  noBreak c hc := h.noBreak c (by simp [hc])
  noIndicator := hasInnerIndicator_of_append (h.isSpace_of_mem_gap hg) hne h.noIndicator
  begins := hu.mono fun c hc => by simp [isInWord, hc]
  ends c hc := h.ends c (by simp [List.getLast?_append, hc])

end IsPlain

theorem hasIndicator_cons {c : Char} {rest : List Char} (h : hasIndicator (c :: rest) = false) :
    isLeadingIndicator c = false ∧
      ((c == '?' || c == ':' || c == '-') && endsWrittenWord rest) = false ∧
      hasInnerIndicator true (c :: rest) = false := by
  rw [hasIndicator.eq_def] at h
  split at h
  · cases h
  · cases h
  · rename_i heq
    obtain ⟨rfl, rfl⟩ := List.cons.inj heq
    rw [Bool.or_eq_false_iff, Bool.or_eq_false_iff] at h
    obtain ⟨⟨hlead, hword⟩, hinner⟩ := h
    refine ⟨hlead, hword, ?_⟩
    have hsharp : (c == '#') = false :=
      beq_eq_false_iff_ne.2 fun heq => absurd (heq ▸ hlead) (by decide)
    rw [Bool.and_eq_false_iff, Bool.or_eq_false_iff, Bool.or_eq_false_iff] at hword
    rw [hasInnerIndicator, hinner, hsharp, Bool.or_eq_false_iff, Bool.or_eq_false_iff]
    exact ⟨⟨Bool.and_eq_false_iff.2 (hword.imp_left fun h => h.1.2), rfl⟩, rfl⟩
  · cases ‹_ = []›

theorem eq_blank_of_isWritable {c : Char} (h : isWritable c = true) (hspace : isSpace c = true) :
    c = ' ' := by
  rcases Bool.or_eq_true_iff.1 hspace with hc | hc
  · exact beq_iff_eq.1 hc
  · rw [beq_iff_eq.1 hc] at h
    cases h

theorem isWritable_of_needsEscapes {cs : List Char} (h : needsEscapes cs = false) :
    ∀ c ∈ cs, isWritable c = true := by
  rw [needsEscapes, Bool.or_eq_false_iff, Bool.not_eq_false'] at h
  exact List.all_eq_true.1 h.1

theorem isPlain_of_isPlainWritable {cs : List Char} (h : isPlainWritable cs = true) (hne : cs ≠ []) :
    IsPlain cs := by
  simp only [isPlainWritable, Bool.and_eq_true, Bool.not_eq_true', decide_eq_true_eq] at h
  obtain ⟨⟨⟨⟨hindicator, hescapes⟩, hbreak⟩, hends⟩, hbegins⟩ := h
  have hwritable := isWritable_of_needsEscapes hescapes
  refine ⟨hne, by simpa using hbreak, ?_, fun c hc => ?_, fun c hc => ?_⟩
  · obtain ⟨x, xs, rfl⟩ := List.exists_cons_of_ne_nil hne
    exact (hasIndicator_cons hindicator).2.2
  · by_contra hspace
    obtain rfl := eq_blank_of_isWritable (hwritable c (List.mem_of_mem_head? hc)) (by simpa using hspace)
    exact hbegins hc
  · by_contra hspace
    obtain rfl := eq_blank_of_isWritable (hwritable c (List.mem_of_getLast? hc)) (by simpa using hspace)
    simp [endsBlank, hc] at hends

/-- A plain text is read with all its words and blanks, and the line break behind it. -/
theorem plainText_eq {cs : List Char} (h : IsPlain cs) {more : List Char} (hmore : StopsGap more)
    {column : ℕ} (hcolumn : 0 < column) {c : Cursor} (hc : c.rest = cs ++ '\n' :: more)
    (hright : column ≤ c.column) {fuel : ℕ} (hfuel : cs.length ≤ fuel) (acc : List Char) (gap : Gap) :
    ∃ i n, plainText false column fuel acc gap c =
      some (acc ++ gap.folded ++ cs, ⟨[], some ['\n'], []⟩, ⟨more, i, n, 0⟩) := by
  -- Each word takes one step and is not empty, so that the length of the text is fuel enough.
  induction cs using words_induction isInWord generalizing c fuel acc gap with
  | word w hw =>
    have hword : plainWord false (w ++ '\n' :: more) = some w := by
      rw [plainWord_eq h.noBreak h.noIndicator, List.takeWhile_eq_self_iff.2 hw]
    have hgap := Gap.read_break hmore (more.length + 1) column (Cursor.rest_advance_append hc)
    obtain ⟨fuel, rfl⟩ := Nat.exists_eq_add_of_lt (lt_of_lt_of_le (List.length_pos_iff.2 h.nonempty) hfuel)
    rw [Nat.zero_add, plainText_word hcolumn hright (hc ▸ h.head?_ne_sharp _) hc hword h.nonempty rfl
      (by simp) hgap, if_pos hcolumn]
    exact ⟨_, _, rfl⟩
  | gap w g u hw hg hgne hu ih =>
    have hspaces := h.isSpace_of_mem_gap hg
    have hwne := h.word_ne_nil hg hgne
    have hplain := h.afterGap hg hgne hu
    have hsharp : c.rest.head? ≠ some '#' := hc ▸ h.head?_ne_sharp _
    have hword : plainWord false (w ++ (g ++ u) ++ '\n' :: more) = some w := by
      rw [plainWord_eq h.noBreak h.noIndicator, takeWhile_cut hw]
      exact stopsAt_append_of_ne_nil (fun z hz => hg z (List.mem_of_mem_head? hz)) hgne
    rw [List.append_assoc, List.append_assoc] at hc hword
    have hnext : (c.advance w.length).rest = g ++ (u ++ '\n' :: more) := Cursor.rest_advance_append hc
    have hugap : StopsGap (u ++ '\n' :: more) := by
      refine stopsAt_append_of_ne_nil (hu.mono fun z hz => ?_) hplain.nonempty
      simpa [isInWord, or_iff_not_imp_left] using hz
    have hgap : Gap.read ((g ++ (u ++ '\n' :: more)).length + 1) column Gap.none
        (c.advance w.length) = some (⟨g, Option.none, []⟩, (c.advance w.length).advance g.length) :=
      Gap.read_spaces hspaces hugap (by simp; omega) column [] hnext
    have hends : endsWord (g ++ (u ++ '\n' :: more)) = true := by
      obtain ⟨z, zs, rfl⟩ := List.exists_cons_of_ne_nil hgne
      simp [endsWord, hspaces z (by simp)]
    have hwlength := List.length_pos_iff.2 hwne
    rw [List.length_append, List.length_append] at hfuel
    obtain ⟨fuel, rfl⟩ : ∃ k, fuel = k + 1 := ⟨fuel - 1, by omega⟩
    rw [plainText_word hcolumn hright hsharp hc hword hwne hends (by simp [hgne]) hgap,
      if_neg (by simp [Cursor.advance]; omega)]
    obtain ⟨i, n, hread⟩ := ih hplain (Cursor.rest_advance_append hnext)
      (by simp [Cursor.advance]; omega) (show u.length ≤ fuel by omega)
      (acc ++ gap.folded ++ w) ⟨g, Option.none, []⟩
    exact ⟨i, n, by rw [hread]; simp [Gap.folded]⟩

end ClusterPackages.Yaml
