import ClusterPackages.Proofs.PercentText
import ClusterPackages.Proofs.PlainLeaf
import Mathlib.Data.List.Chain

/-! Quoted leaves. Between quotes a text is spelled character by character, in runs that blanks or
line separators divide; what is written in single or in double quotes is read back as it was. -/

namespace ClusterPackages.Yaml

open Text

/-! ## Characters -/

/-- A run with one more character in front, which some characters spell. -/
def QuotedRun.cons (x : Char) (length : ℕ) (r : QuotedRun) : QuotedRun :=
  ⟨x :: r.text, length + r.length, r.breakEscaped⟩

/-- Inside quotes these characters are read as one. -/
def Spells (quote : Char) (s : List Char) (x : Char) : Prop :=
  s ≠ [] ∧ ∀ fuel rest, quotedRun quote (fuel + 1) (s ++ rest) =
    (quotedRun quote fuel rest).map (QuotedRun.cons x s.length)

theorem spells_self {quote x : Char} (hword : isInWord x = true) (hquote : x ≠ quote)
    (hescape : x = '\\' → quote ≠ '"') : Spells quote [x] x := by
  refine ⟨List.cons_ne_nil _ _, fun fuel rest => ?_⟩
  have hblank : (isSpace x || isBreak x) = false := by
    simpa [isInWord] using hword
  have hplain : (quote == '"' && x == '\\') = false := by
    rw [Bool.and_eq_false_iff, beq_eq_false_iff_ne, beq_eq_false_iff_ne]
    exact or_iff_not_imp_right.2 fun h => hescape (not_not.1 h)
  rw [List.singleton_append, quotedRun.eq_def]
  simp only [hblank, beq_eq_false_iff_ne.2 hquote, hplain, Bool.false_eq_true, if_false]
  cases quotedRun quote fuel rest <;> rfl

theorem spells_apostrophe : Spells '\'' ['\'', '\''] '\'' := by
  refine ⟨List.cons_ne_nil _ _, fun fuel rest => ?_⟩
  rw [List.cons_append, List.singleton_append, quotedRun.eq_def]
  simp only [show (isSpace '\'' || isBreak '\'') = false from rfl, Bool.false_eq_true, if_false,
    beq_self_eq_true, if_true]
  cases quotedRun '\'' fuel rest <;> rfl

theorem spells_escape {e x : Char} (hbreak : isBreak e = false) (hwidth : escapeWidth? e = none)
    (he : escape? e = some x) : Spells '"' ['\\', e] x := by
  refine ⟨List.cons_ne_nil _ _, fun fuel rest => ?_⟩
  rw [List.cons_append, List.singleton_append, quotedRun.eq_def]
  simp only [show (isSpace '\\' || isBreak '\\') = false from rfl, Bool.false_eq_true, if_false,
    show ('\\' == '"') = false from rfl, beq_self_eq_true, Bool.and_self, if_true, hbreak, hwidth, he,
    Option.bind_eq_bind, Option.bind_some]
  cases quotedRun '"' fuel rest <;> rfl

theorem spells_number {e x : Char} {digits : List Char} (hbreak : isBreak e = false)
    (hwidth : escapeWidth? e = some digits.length) (hdigits : hexNumber? digits = some x.toNat) :
    Spells '"' ('\\' :: e :: digits) x := by
  refine ⟨List.cons_ne_nil _ _, fun fuel rest => ?_⟩
  have hchar : charOfNumber? x.toNat = some x := by
    have := toNat_bounds x
    rw [charOfNumber?, if_neg (by omega), Char.ofNat_toNat]
  rw [List.cons_append, List.cons_append, quotedRun.eq_def]
  simp only [show (isSpace '\\' || isBreak '\\') = false from rfl, Bool.false_eq_true, if_false,
    show ('\\' == '"') = false from rfl, beq_self_eq_true, Bool.and_self, if_true, hbreak, hwidth,
    List.take_left, List.drop_left, lt_self_iff_false, hdigits, hchar, Option.bind_eq_bind,
    Option.bind_some]
  cases quotedRun '"' fuel rest <;> rfl

/-! ## Escapes -/

theorem length_hexFixed (width n : ℕ) : (hexFixed width n).length = width := by
  induction width generalizing n with
  | zero => rfl
  | succ width ih => rw [hexFixed, List.length_append, ih, List.length_singleton]

theorem hexValue?_digit : ∀ n < 16, hexValue? (upperHexDigit n) = some n := by decide

theorem hexNumber?_hexFixed {width n : ℕ} (h : n < Nat.pow 16 width) :
    hexNumber? (hexFixed width n) = some n := by
  induction width generalizing n with
  | zero =>
    obtain rfl : n = 0 := Nat.lt_one_iff.1 h
    rfl
  | succ width ih =>
    have hpow : Nat.pow 16 (width + 1) = Nat.pow 16 width * 16 := rfl
    have hdiv : hexNumber? (hexFixed width (n / 16)) = some (n / 16) := ih (by omega)
    rw [hexNumber?] at hdiv ⊢
    rw [hexFixed, List.foldlM_append, hdiv, Option.bind_eq_bind, Option.bind_some, List.foldlM_cons,
      hexValue?_digit _ (Nat.mod_lt n (by decide)), Option.map_some, Option.bind_eq_bind,
      Option.bind_some, List.foldlM_nil, Nat.div_add_mod]
    rfl

theorem spells_hexFixed {e x : Char} {width : ℕ} (hbreak : isBreak e = false)
    (hwidth : escapeWidth? e = some width) (hx : x.toNat < Nat.pow 16 width) :
    Spells '"' ('\\' :: e :: hexFixed width x.toNat) x :=
  spells_number hbreak (by rw [length_hexFixed, hwidth]) (hexNumber?_hexFixed hx)

theorem spells_escaped (x : Char) : Spells '"' (escaped x) x := by
  have hx := toNat_bounds x
  rw [escaped.eq_def]
  split
  all_goals first | exact spells_escape rfl rfl rfl | skip
  dsimp only
  split_ifs with hsmall hmiddle
  · exact spells_hexFixed rfl rfl hsmall
  · exact spells_hexFixed rfl rfl hmiddle
  · exact spells_hexFixed rfl rfl (show x.toNat < 0x100000000 by omega)

/-! ## Runs -/

/-- No run goes on here. -/
def EndsRun (quote : Char) (rest : List Char) : Prop :=
  ∀ fuel, quotedRun quote fuel rest = some ⟨[], 0, false⟩

theorem endsRun_of_not_isInWord {quote c : Char} (h : isInWord c = false) (rest : List Char) :
    EndsRun quote (c :: rest) := by
  intro fuel
  have hblank : (isSpace c || isBreak c) = true := by
    simpa [isInWord, Bool.or_eq_true_iff, or_iff_not_imp_left] using h
  cases fuel with
  | zero => rfl
  | succ fuel => rw [quotedRun.eq_def]; simp only [hblank, if_true]

theorem endsRun_quote {quote : Char} (hword : isInWord quote = true) {rest : List Char}
    (hrest : rest.head? ≠ some '\'') : EndsRun quote (quote :: rest) := by
  intro fuel
  have hblank : (isSpace quote || isBreak quote) = false := by simpa [isInWord] using hword
  cases fuel with
  | zero => rfl
  | succ fuel =>
    rw [quotedRun.eq_def]
    simp only [hblank, Bool.false_eq_true, if_false, beq_self_eq_true, if_true]
    split
    · exact absurd rfl hrest
    · rfl

/-- A run of characters that is read as a text, whatever ends it. -/
def IsRun (quote : Char) (written text : List Char) : Prop :=
  ∀ fuel rest, EndsRun quote rest → written.length < fuel →
    quotedRun quote fuel (written ++ rest) = some ⟨text, written.length, false⟩

theorem isRun_flatMap {quote : Char} {spell : Char → List Char} {w : List Char}
    (h : ∀ x ∈ w, Spells quote (spell x) x) : IsRun quote (w.flatMap spell) w := by
  induction w with
  | nil => exact fun fuel rest hrest _ => hrest fuel
  | cons x w ih =>
    obtain ⟨⟨hne, hx⟩, hw⟩ := List.forall_mem_cons.1 h
    intro fuel rest hrest hfuel
    have hpos := List.length_pos_iff.2 hne
    rw [List.flatMap_cons, List.length_append] at hfuel
    obtain ⟨fuel, rfl⟩ : ∃ k, fuel = k + 1 := ⟨fuel - 1, by omega⟩
    rw [List.flatMap_cons, List.append_assoc, hx, ih hw fuel rest hrest (by omega), Option.map_some,
      List.length_append]
    rfl

/-! ## Line separators -/

/-- Line breaks that are kept. -/
def isSeparator (c : Char) : Bool := c == '\u2028' || c == '\u2029'

theorem isBreak_of_isSeparator {c : Char} (h : isSeparator c = true) : isBreak c = true := by
  rcases Bool.or_eq_true_iff.1 h with h | h <;> rw [beq_iff_eq.1 h] <;> rfl

theorem isSpace_of_isSeparator {c : Char} (h : isSeparator c = true) : isSpace c = false := by
  rcases Bool.or_eq_true_iff.1 h with h | h <;> rw [beq_iff_eq.1 h] <;> rfl

namespace Cursor

theorem lineBreak_of_isSeparator {x : Char} {rest : List Char} (hx : isSeparator x = true) {c : Cursor}
    (hc : c.rest = x :: rest) : c.lineBreak = [x] := by
  rw [lineBreak, hc]
  exact if_pos hx

theorem nextLine_of_isSeparator {x : Char} {rest : List Char} (hx : isSeparator x = true) {c : Cursor}
    (hc : c.rest = x :: rest) : c.nextLine = ⟨rest, c.index + 1, c.line + 1, 0⟩ :=
  nextLine_of_isBreak (isBreak_of_isSeparator hx) (fun h => absurd (h ▸ hx) (by decide)) hc

end Cursor

namespace Gap

variable {rest : List Char}

theorem read_indentation (hrest : StopsGap rest) {n fuel : ℕ} (hfuel : n ≤ fuel) (s f m : List Char)
    {c : Cursor} (hc : c.rest = indentation n ++ rest) :
    read fuel 0 ⟨s, some f, m⟩ c = some (⟨s, some f, m⟩, c.advance n) := by
  induction n generalizing fuel c with
  | zero => exact read_of_stopsGap (hc ▸ hrest) fuel 0 _
  | succ n ih =>
    obtain ⟨fuel, rfl⟩ : ∃ k, fuel = k + 1 := ⟨fuel - 1, by omega⟩
    have hc' : c.rest = ' ' :: (indentation n ++ rest) := hc
    have hnext : (c.advance 1).rest = indentation n ++ rest := by simp [Cursor.advance, hc']
    rw [read, hc']
    simp only [show isSpace ' ' = true from rfl, if_true, show (' ' == '\t') = false from rfl,
      Bool.false_and, Bool.false_eq_true, if_false]
    rw [ih (by omega) hnext, Cursor.advance_advance, Nat.add_comm]

theorem read_separators {g : List Char} (hg : ∀ x ∈ g, isSeparator x = true) (hrest : StopsGap rest)
    {n fuel : ℕ} (hfuel : g.length + n ≤ fuel) (s f m : List Char) {c : Cursor}
    (hc : c.rest = g ++ (indentation n ++ rest)) :
    ∃ c', read fuel 0 ⟨s, some f, m⟩ c = some (⟨s, some f, m ++ g⟩, c') ∧ c'.rest = rest ∧
      n ≤ c'.column := by
  induction g generalizing fuel m c with
  | nil =>
    rw [List.nil_append] at hc
    have hadvance := Cursor.rest_advance_append hc
    rw [indentation, List.length_replicate] at hadvance
    refine ⟨c.advance n, ?_, hadvance, Nat.le_add_left n _⟩
    rw [read_indentation hrest (by simpa using hfuel) s f m hc, List.append_nil]
  | cons x g ih =>
    obtain ⟨hx, hg⟩ := List.forall_mem_cons.1 hg
    obtain ⟨fuel, rfl⟩ : ∃ k, fuel = k + 1 := ⟨fuel - 1, by simp at hfuel; omega⟩
    rw [List.cons_append] at hc
    obtain ⟨c', hread, hrest', hcolumn⟩ := ih hg (show g.length + n ≤ fuel by simp at hfuel; omega)
      (m ++ [x])
      (c := ⟨g ++ (indentation n ++ rest), c.index + 1, c.line + 1, 0⟩) rfl
    refine ⟨c', ?_, hrest', hcolumn⟩
    rw [read, hc]
    simp only [isSpace_of_isSeparator hx, Bool.false_eq_true, if_false, isBreak_of_isSeparator hx, if_true,
      Cursor.lineBreak_of_isSeparator hx hc, Cursor.nextLine_of_isSeparator hx hc]
    rw [hread]
    simp

/-- Separators before an indented line. -/
theorem read_lines {g : List Char} (hg : ∀ x ∈ g, isSeparator x = true) (hne : g ≠ [])
    (hrest : StopsGap rest) {n fuel : ℕ} (hfuel : g.length + n ≤ fuel) {c : Cursor}
    (hc : c.rest = g ++ (indentation n ++ rest)) :
    ∃ gap c', read fuel 0 Gap.none c = some (gap, c') ∧ gap.folded = g ∧ c'.rest = rest ∧
      n ≤ c'.column := by
  obtain ⟨x, g, rfl⟩ := List.exists_cons_of_ne_nil hne
  obtain ⟨hx, hg⟩ := List.forall_mem_cons.1 hg
  obtain ⟨fuel, rfl⟩ : ∃ k, fuel = k + 1 := ⟨fuel - 1, by simp at hfuel; omega⟩
  rw [List.cons_append] at hc
  obtain ⟨c', hread, hrest', hcolumn⟩ := read_separators hg hrest (show g.length + n ≤ fuel by
    simp at hfuel; omega) [] [x] [] (c := ⟨g ++ (indentation n ++ rest), c.index + 1, c.line + 1, 0⟩) rfl
  refine ⟨⟨[], some [x], [] ++ g⟩, c', ?_, ?_, hrest', hcolumn⟩
  · rw [read, hc]
    simp only [isSpace_of_isSeparator hx, Bool.false_eq_true, if_false, isBreak_of_isSeparator hx, if_true,
      Gap.none, Cursor.lineBreak_of_isSeparator hx hc, Cursor.nextLine_of_isSeparator hx hc]
    exact hread
  · rw [folded, List.nil_append]
    split
    · cases ‹some _ = Option.none›
    · rename_i heq
      cases heq
      cases hx
    · rename_i heq
      cases heq
      rfl

end Gap

/-! ## Bodies -/

/-- What stands between quotes, and how it is read: runs that blanks divide, or separators with the
indentation of the next line. -/
inductive Quoted (quote : Char) : (written text : List Char) → Prop
  | run {w t : List Char} (hrun : IsRun quote w t) : Quoted quote w t
  | blanks {w t g v u : List Char} (hrun : IsRun quote w t) (hg : ∀ x ∈ g, isSpace x = true) (hne : g ≠ [])
    (hstop : StopsGap v) (rest : Quoted quote v u) : Quoted quote (w ++ (g ++ v)) (t ++ (g ++ u))
  | lines {w t g v u : List Char} (hrun : IsRun quote w t) (hg : ∀ x ∈ g, isSeparator x = true) (hne : g ≠ [])
    (n : ℕ) (hstop : StopsGap v) (rest : Quoted quote v u) :
    Quoted quote (w ++ (g ++ (indentation (n + 1) ++ v))) (t ++ (g ++ u))

/-- One run: the gap behind it is read, and the text goes on. -/
theorem quotedText_run {quote : Char} (hquote : isInWord quote = true) {w t g r : List Char}
    (hrun : IsRun quote w t) (hg : ∀ x ∈ g, isInWord x = false) (hne : g ≠ []) {c c' : Cursor}
    (hcolumn : 0 < c.column) (hc : c.rest = w ++ (g ++ r)) {gap : Gap}
    (hgap : Gap.read ((g ++ r).length + 1) 0 Gap.none (c.advance w.length) = some (gap, c')) (fuel : ℕ)
    (acc : List Char) :
    quotedText quote (fuel + 1) acc c = quotedText quote fuel (acc ++ t ++ gap.folded) c' := by
  obtain ⟨x, g, rfl⟩ := List.exists_cons_of_ne_nil hne
  have hx := hg x List.mem_cons_self
  have hxquote : x ≠ quote := by
    rintro rfl
    exact absurd hquote (by simp [hx])
  have hnext : (c.advance w.length).rest = x :: g ++ r := Cursor.rest_advance_append hc
  have hmark : ¬ (c.atDocumentMark || decide (c.rest = [])) = true := by
    simp [Cursor.atDocumentMark, Nat.pos_iff_ne_zero.1 hcolumn, hc]
  have hends : EndsRun quote (x :: g ++ r) := endsRun_of_not_isInWord hx (g ++ r)
  rw [quotedText, if_neg hmark, hc, hrun _ _ hends (by rw [List.length_append]; omega), Option.bind_eq_bind,
    Option.bind_some]
  have hhead : ¬ (x :: g ++ r).head? = some quote := by simpa using hxquote
  simp only [Bool.false_eq_true, if_false, hnext, hhead, hgap, Option.bind_eq_bind, Option.bind_some]

theorem quotedText_last {quote : Char} {w t more : List Char} (hrun : IsRun quote w t)
    (hends : EndsRun quote (quote :: more)) {c : Cursor} (hcolumn : 0 < c.column)
    (hc : c.rest = w ++ quote :: more) (fuel : ℕ) (acc : List Char) :
    quotedText quote (fuel + 1) acc c = some (acc ++ t, c.advance (w.length + 1)) := by
  have hnext : (c.advance w.length).rest = quote :: more := Cursor.rest_advance_append hc
  have hmark : ¬ (c.atDocumentMark || decide (c.rest = [])) = true := by
    simp [Cursor.atDocumentMark, Nat.pos_iff_ne_zero.1 hcolumn, hc]
  rw [quotedText, if_neg hmark, hc, hrun _ _ hends (by rw [List.length_append]; omega), Option.bind_eq_bind,
    Option.bind_some]
  simp only [Bool.false_eq_true, if_false, hnext, List.head?_cons, if_true, Cursor.advance_advance]

/-- What stands between quotes is read as what it spells. Behind an apostrophe another one would go on. -/
theorem quotedText_eq {quote : Char} {written text : List Char} (h : Quoted quote written text)
    (hquote : isInWord quote = true) {more : List Char} (hmore : more.head? ≠ some '\'') {c : Cursor}
    (hcolumn : 0 < c.column) (hc : c.rest = written ++ quote :: more) {fuel : ℕ}
    (hfuel : written.length < fuel) (acc : List Char) :
    ∃ c', quotedText quote fuel acc c = some (acc ++ text, c') ∧ c'.rest = more := by
  have hends := endsRun_quote hquote hmore
  have hclose {v : List Char} (hv : StopsGap v) : StopsGap (v ++ quote :: more) :=
    stopsAt_append hv (stopsAt_cons (by simpa [isInWord] using hquote))
  induction h generalizing c fuel acc with
  | run hrun =>
    obtain ⟨fuel, rfl⟩ : ∃ k, fuel = k + 1 := ⟨fuel - 1, by omega⟩
    refine ⟨_, quotedText_last hrun hends hcolumn hc fuel acc, ?_⟩
    have hnext := Cursor.rest_advance_append hc
    rw [← Cursor.advance_advance]
    exact congrArg (List.drop 1) hnext
  | @blanks w t g v u hrun hg hne hstop _ ih =>
    obtain ⟨fuel, rfl⟩ : ∃ k, fuel = k + 1 := ⟨fuel - 1, by omega⟩
    rw [List.append_assoc, List.append_assoc] at hc
    have hnext := Cursor.rest_advance_append hc
    have hgap := Gap.read_spaces hg (hclose hstop) (show g.length ≤ (g ++ (v ++ quote :: more)).length + 1 by
      simp; omega) 0 [] hnext
    have hlength := List.length_pos_iff.2 hne
    rw [quotedText_run hquote hrun (fun x hx => by simp [isInWord, hg x hx]) hne hcolumn hc hgap]
    rw [List.length_append, List.length_append] at hfuel
    obtain ⟨c', hread, hrest⟩ := ih (show 0 < c.column + w.length + g.length by omega)
      (Cursor.rest_advance_append hnext) (show v.length < fuel by omega) (acc ++ t ++ g)
    exact ⟨c', by simpa [Gap.folded] using hread, hrest⟩
  | @lines w t g v u hrun hg hne n hstop _ ih =>
    obtain ⟨fuel, rfl⟩ : ∃ k, fuel = k + 1 := ⟨fuel - 1, by omega⟩
    rw [List.append_assoc, List.append_assoc, List.append_assoc] at hc
    have hnext := Cursor.rest_advance_append hc
    obtain ⟨gap, c₁, hgap, hfolded, hrest₁, hcolumn₁⟩ := Gap.read_lines hg hne (hclose hstop)
      (show g.length + (n + 1) ≤ (g ++ (indentation (n + 1) ++ (v ++ quote :: more))).length + 1 by
        simp [indentation]; omega) hnext
    have hlength := List.length_pos_iff.2 hne
    rw [quotedText_run hquote hrun (fun x hx => by simp [isInWord, isBreak_of_isSeparator (hg x hx)]) hne
      hcolumn hc hgap]
    rw [List.length_append, List.length_append, List.length_append] at hfuel
    obtain ⟨c', hread, hrest⟩ := ih (by omega) hrest₁ (show v.length < fuel by omega)
      (acc ++ t ++ gap.folded)
    exact ⟨c', by simpa [hfolded] using hread, hrest⟩

/-! ## Double quotes -/

theorem Spells.stopsGap {quote x : Char} {s : List Char} (h : Spells quote s x) (rest : List Char) :
    StopsGap (s ++ rest) := by
  obtain ⟨y, s, rfl⟩ := List.exists_cons_of_ne_nil h.1
  refine stopsAt_cons (Bool.eq_false_iff.2 fun hy => ?_)
  have hread := h.2 0 []
  rw [List.append_nil, quotedRun.eq_def, quotedRun.eq_def] at hread
  simp [hy, QuotedRun.cons] at hread

theorem stopsGap_flatMap {quote : Char} {spell : Char → List Char} {u : List Char}
    (h : ∀ x, u.head? = some x → Spells quote (spell x) x) : StopsGap (u.flatMap spell) := by
  cases u with
  | nil => exact stopsAt_nil
  | cons x u => exact (h x rfl).stopsGap _

def inDoubleQuotes (c : Char) : List Char :=
  if !isWritable c || isBreak c || c == '"' || c == '\\' then escaped c else [c]

theorem doubleQuoted_eq (cs : List Char) :
    doubleQuoted cs = '"' :: (cs.flatMap inDoubleQuotes ++ ['"']) := rfl

theorem spells_inDoubleQuotes {x : Char} (hx : x ≠ ' ') : Spells '"' (inDoubleQuotes x) x := by
  rw [inDoubleQuotes]
  split_ifs with h
  · exact spells_escaped x
  · simp only [Bool.or_eq_true, Bool.not_eq_true', beq_iff_eq, not_or, Bool.not_eq_false,
      Bool.not_eq_true] at h
    obtain ⟨⟨⟨hwritable, hbreak⟩, hquote⟩, hescape⟩ := h
    have hspace : isSpace x = false := Bool.eq_false_iff.2 fun h => hx (eq_blank_of_isWritable hwritable h)
    exact spells_self (by simp [isInWord, hspace, hbreak]) hquote fun h => absurd h hescape

theorem quoted_inDoubleQuotes (cs : List Char) : Quoted '"' (cs.flatMap inDoubleQuotes) cs := by
  have hspells {x : Char} (hx : (x != ' ') = true) := spells_inDoubleQuotes (bne_iff_ne.1 hx)
  induction cs using words_induction (· != ' ') with
  | word w hw => exact .run (isRun_flatMap fun x hx => hspells (hw x hx))
  | gap w g u hw hg hne hu ih =>
    have hblank : ∀ x ∈ g, x = ' ' := fun x hx => by simpa using hg x hx
    have hgap : g.flatMap inDoubleQuotes = g := by
      rw [List.eq_replicate_of_mem hblank, List.flatMap_replicate]
      simp [inDoubleQuotes, isWritable, isBreak]
    rw [List.flatMap_append, List.flatMap_append, hgap]
    exact .blanks (isRun_flatMap fun x hx => hspells (hw x hx)) (fun x hx => by rw [hblank x hx]; rfl) hne
      (stopsGap_flatMap fun x hx => hspells (by simpa using hu x hx)) ih

/-! ## Single quotes -/

/-- Two characters of which the first is of one class and the second of another never meet. -/
theorem isChain_of_hasNeighbours {p q : Char → Bool} {cs : List Char} (h : hasNeighbours p q cs = false) :
    cs.IsChain fun c d => ¬ (p c = true ∧ q d = true) := by
  induction cs with
  | nil => exact .nil
  | cons c cs ih =>
    cases cs with
    | nil => exact .singleton c
    | cons d cs =>
      rw [hasNeighbours, Bool.or_eq_false_iff] at h
      exact .cons_cons (by simpa using h.1) (ih h.2)

def inSingleQuotes (c : Char) : List Char := if c == '\'' then ['\'', '\''] else [c]

theorem spells_inSingleQuotes {x : Char} (hx : isInWord x = true) : Spells '\'' (inSingleQuotes x) x := by
  rw [inSingleQuotes]
  split_ifs with h
  · rw [beq_iff_eq.1 h]
    exact spells_apostrophe
  · exact spells_self hx (by simpa using h) fun _ => by decide

theorem singleQuoted_eq (n : ℕ) (cs : List Char) :
    singleQuoted n cs = '\'' :: (singleQuoted.go n false cs ++ ['\'']) := rfl

theorem go_append {n : ℕ} {w : List Char} (hw : ∀ x ∈ w, isBreak x = false) (u : List Char) :
    singleQuoted.go n false (w ++ u) = w.flatMap inSingleQuotes ++ singleQuoted.go n false u := by
  induction w with
  | nil => rfl
  | cons x w ih =>
    obtain ⟨hx, hw⟩ := List.forall_mem_cons.1 hw
    rw [List.cons_append, singleQuoted.go, if_neg (by simp [hx]), ih hw, List.flatMap_cons]
    simp [inSingleQuotes]

theorem go_of_stopsAt {n : ℕ} {u : List Char} (hu : StopsAt isBreak u) :
    singleQuoted.go n true u = indentation n ++ singleQuoted.go n false u := by
  cases u with
  | nil => simp [singleQuoted.go]
  | cons x u =>
    have hx : isBreak x = false := hu x rfl
    simp [singleQuoted.go, hx]

theorem go_breaks {n : ℕ} {g : List Char} (hg : ∀ x ∈ g, isBreak x = true) (hne : g ≠ [])
    {u : List Char} (hu : StopsAt isBreak u) (afterBreak : Bool) :
    singleQuoted.go n afterBreak (g ++ u) = g ++ (indentation n ++ singleQuoted.go n false u) := by
  induction g generalizing afterBreak with
  | nil => exact absurd rfl hne
  | cons x g ih =>
    obtain ⟨hx, hg⟩ := List.forall_mem_cons.1 hg
    rw [List.cons_append, singleQuoted.go, if_pos hx]
    cases g with
    | nil => rw [List.nil_append, go_of_stopsAt hu, List.singleton_append]
    | cons y g => exact congrArg (x :: ·) (ih hg (List.cons_ne_nil _ _) true)

theorem isSeparator_of_isWritable {c : Char} (h : isWritable c = true) (hbreak : isBreak c = true)
    (hline : c ≠ '\n') : isSeparator c = true := by
  simp only [isBreak, Bool.or_eq_true, beq_iff_eq] at hbreak
  rcases hbreak with (((rfl | rfl) | rfl) | rfl) | rfl
  · exact absurd rfl hline
  · cases h
  · cases h
  · rfl
  · rfl

/-- One line that needs no escapes, in which blanks and separators do not meet. -/
structure IsQuotable (cs : List Char) : Prop where
  writable : ∀ c ∈ cs, isWritable c = true
  line : ∀ c ∈ cs, c ≠ '\n'
  blankBreak : cs.IsChain fun c d => ¬ (isBlankChar c = true ∧ isBreak d = true)
  breakBlank : cs.IsChain fun c d => ¬ (isBreak c = true ∧ isBlankChar d = true)

namespace IsQuotable

variable {cs ds : List Char}

theorem left (h : IsQuotable (cs ++ ds)) : IsQuotable cs where
  writable c hc := h.writable c (List.mem_append_left ds hc)
  line c hc := h.line c (List.mem_append_left ds hc)
  blankBreak := h.blankBreak.left_of_append
  breakBlank := h.breakBlank.left_of_append

theorem right (h : IsQuotable (cs ++ ds)) : IsQuotable ds where
  writable c hc := h.writable c (List.mem_append_right cs hc)
  line c hc := h.line c (List.mem_append_right cs hc)
  blankBreak := h.blankBreak.right_of_append
  breakBlank := h.breakBlank.right_of_append

theorem of_isSingleQuotable (h : isSingleQuotable cs = true) (hline : '\n' ∉ cs) : IsQuotable cs := by
  rw [isSingleQuotable, Bool.and_eq_true, Bool.not_eq_true', Bool.not_eq_true'] at h
  obtain ⟨hescapes, hbreak⟩ := h
  refine ⟨isWritable_of_needsEscapes hescapes, fun c hc heq => hline (heq ▸ hc), ?_,
    isChain_of_hasNeighbours hbreak⟩
  rw [needsEscapes, Bool.or_eq_false_iff] at hescapes
  exact isChain_of_hasNeighbours hescapes.2

/-- A gap has one kind of characters only. -/
theorem blanks_or_separators {g : List Char} (h : IsQuotable g) (hg : ∀ x ∈ g, isInWord x = false) :
    (∀ x ∈ g, x = ' ') ∨ ∀ x ∈ g, isSeparator x = true := by
  induction g with
  | nil => exact .inl (by simp)
  | cons x g ih =>
    obtain ⟨hx, hg⟩ := List.forall_mem_cons.1 hg
    have hkind : x = ' ' ∨ isSeparator x = true := by
      rw [isInWord, Bool.and_eq_false_iff, Bool.not_eq_false', Bool.not_eq_false'] at hx
      have hwritable := h.writable x List.mem_cons_self
      exact hx.imp (eq_blank_of_isWritable hwritable) fun hbreak =>
        isSeparator_of_isWritable hwritable hbreak (h.line x List.mem_cons_self)
    cases g with
    | nil => simpa using hkind
    | cons y g =>
      have hblank := (List.isChain_cons_cons.1 h.blankBreak).1
      have hbreak := (List.isChain_cons_cons.1 h.breakBlank).1
      have htail : IsQuotable (y :: g) := (show IsQuotable ([x] ++ (y :: g)) from h).right
      refine (ih htail hg).imp (fun h => ?_) fun h => ?_
      · refine List.forall_mem_cons.2 ⟨hkind.resolve_right fun hx => ?_, h⟩
        exact hbreak ⟨isBreak_of_isSeparator hx, by simp [isBlankChar, h y]⟩
      · refine List.forall_mem_cons.2 ⟨hkind.resolve_left fun hx => ?_, h⟩
        exact hblank ⟨by simp [isBlankChar, hx], isBreak_of_isSeparator (h y (by simp))⟩

end IsQuotable

theorem isBreak_of_isInWord {c : Char} (h : isInWord c = true) : isBreak c = false := by
  rw [isInWord, Bool.and_eq_true, Bool.not_eq_true', Bool.not_eq_true'] at h
  exact h.2

theorem stopsGap_go {n : ℕ} {u : List Char} (hu : StopsAt (fun c => !isInWord c) u) :
    StopsGap (singleQuoted.go n false u) := by
  cases u with
  | nil => exact stopsAt_nil
  | cons x u =>
    have hx : isInWord x = true := by simpa using hu x rfl
    have hgo := go_append (n := n) (List.forall_mem_singleton.2 (isBreak_of_isInWord hx)) u
    rw [List.singleton_append, List.flatMap_singleton] at hgo
    exact hgo ▸ (spells_inSingleQuotes hx).stopsGap _

/-- In single quotes blanks stay, and separators are followed by the indentation of the next line. -/
theorem quoted_go (n : ℕ) {cs : List Char} (h : IsQuotable cs) :
    Quoted '\'' (singleQuoted.go (n + 1) false cs) cs := by
  have hbreak {w : List Char} (hw : ∀ x ∈ w, isInWord x = true) : ∀ x ∈ w, isBreak x = false :=
    fun x hx => isBreak_of_isInWord (hw x hx)
  have hrun {w : List Char} (hw : ∀ x ∈ w, isInWord x = true) : IsRun '\'' (w.flatMap inSingleQuotes) w :=
    isRun_flatMap fun x hx => spells_inSingleQuotes (hw x hx)
  induction cs using words_induction isInWord with
  | word w hw =>
    have hgo : singleQuoted.go (n + 1) false (w ++ []) = w.flatMap inSingleQuotes ++ [] :=
      go_append (hbreak hw) []
    rw [List.append_nil, List.append_nil] at hgo
    exact hgo ▸ .run (hrun hw)
  | gap w g u hw hg hne hu ih =>
    rw [go_append (hbreak hw)]
    rcases h.right.left.blanks_or_separators hg with hall | hall
    · have hgap : g.flatMap inSingleQuotes = g := by
        rw [List.eq_replicate_of_mem hall, List.flatMap_replicate]
        simp [inSingleQuotes]
      rw [go_append (fun x hx => by rw [hall x hx]; rfl), hgap]
      exact .blanks (hrun hw) (fun x hx => by rw [hall x hx]; rfl) hne (stopsGap_go hu) (ih h.right.right)
    · rw [go_breaks (fun x hx => isBreak_of_isSeparator (hall x hx)) hne (hu.mono fun x hx => by
        simp [isInWord, hx])]
      exact .lines (hrun hw) hall hne n (stopsGap_go hu) (ih h.right.right)

end ClusterPackages.Yaml
