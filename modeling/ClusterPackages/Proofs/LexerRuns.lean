import ClusterPackages.Document.Yaml.Written
import ClusterPackages.Proofs.PlainLeaf
import Mathlib.Tactic.Tauto

/-! Runs of the lexer. What some steps give is put together from what each step gives; a step depends on
where the next token begins, and not on the white space before it. -/

namespace ClusterPackages.Yaml.Lexer

open Text

/-! ## Runs -/

/-- So many steps of a lexer give these tokens and leave that lexer. -/
def Reads (l : Lexer) (steps : ℕ) (ts : List Token) (l' : Lexer) : Prop :=
  ∀ fuel, run (fuel + steps) l = ts ++ run fuel l'

variable {l l' l'' : Lexer}

theorem Reads.trans {m n : ℕ} {ts us : List Token} (h : Reads l m ts l') (h' : Reads l' n us l'') :
    Reads l (n + m) (ts ++ us) l'' := by
  intro fuel
  rw [← Nat.add_assoc, h, h', List.append_assoc]

theorem Reads.of_run_eq {m : ℕ} {ts : List Token} (h : Reads l m ts l')
    (heq : ∀ fuel, run fuel l' = run fuel l'') : Reads l m ts l'' := fun fuel => by
  rw [h, heq]

theorem reads_fetch (hqueue : l.queue = []) (hfetch : l.fetch = some l') : Reads l 1 [] l' := by
  intro fuel
  rw [run, hqueue]
  simp only [hfetch]
  rfl

theorem dropStaleKeys_of_no_key (hkey : l.key = none) (houter : l.outerKeys = []) :
    l.dropStaleKeys = some l := by
  cases l
  cases hkey
  cases houter
  rfl

/-- Tokens that wait are given out when no key can begin before them. -/
theorem reads_queue {ts : List Token} (hkey : l.key = none) (houter : l.outerKeys = [])
    (hqueue : l.queue = ts) (hend : .streamEnd ∉ ts) :
    Reads l ts.length ts { l with queue := [], taken := l.taken + ts.length } := by
  induction ts generalizing l with
  | nil =>
    intro fuel
    cases l
    cases hqueue
    rfl
  | cons t ts ih =>
    intro fuel
    obtain ⟨ht, hts⟩ := not_or.1 (mt List.mem_cons.2 hend)
    have hrest := ih (l := { l with queue := ts, taken := l.taken + 1 }) hkey houter rfl hts
    have hhead : l.headMayBeKey = false := by simp [headMayBeKey, hkey, houter]
    rw [List.length_cons, ← Nat.add_assoc, run, hqueue]
    simp only [dropStaleKeys_of_no_key hkey houter, hhead, hqueue, Bool.false_eq_true, if_false]
    split
    · cases ‹_ = []›
    · rename_i heq
      exact absurd (List.cons.inj heq).1 (Ne.symm ht)
    · rename_i heq
      obtain ⟨rfl, rfl⟩ := List.cons.inj heq
      have htaken : l.taken + 1 + ts.length = l.taken + (ts.length + 1) := by omega
      rw [hrest fuel]
      simp only [htaken]
      rfl

/-! ## Places -/

/-- The start of an entry of the outermost mapping, which the first entry opens. -/
def atEntry (opened : Bool) (taken : ℕ) (c : Cursor) : Lexer where
  cursor := c
  queue := []
  taken := taken
  indent := if opened then 0 else -1
  outerIndents := if opened then [-1] else []
  keyAllowed := true
  key := none
  outerKeys := []

/-- Behind the colon of a key. -/
def atValue (taken : ℕ) (c : Cursor) : Lexer := { atEntry true taken c with keyAllowed := false }

theorem indent_atEntry_le (opened : Bool) (taken : ℕ) (c : Cursor) (column : ℕ) :
    (atEntry opened taken c).indent ≤ column := by
  cases opened <;> simp [atEntry]

/-- A token begins here. -/
def BeginsToken (rest : List Char) : Prop :=
  StopsAt (fun c => isSpace c || isBreak c || c == '#') rest

theorem BeginsToken.not_isSpace {rest : List Char} (h : BeginsToken rest) : StopsAt isSpace rest :=
  h.mono fun x hx => by rw [hx]; rfl

theorem BeginsToken.stopsGap {rest : List Char} (h : BeginsToken rest) : StopsGap rest :=
  h.mono fun x hx => by rw [hx]; rfl

/-- White space inside a line. -/
def isSkipped (l : Lexer) (x : Char) : Bool := x == ' ' || ((l.inFlow || !l.keyAllowed) && x == '\t')

theorem isSpace_of_isSkipped {x : Char} (h : l.isSkipped x = true) : isSpace x = true := by
  simp only [isSkipped, isSpace, Bool.or_eq_true, Bool.and_eq_true] at h ⊢
  exact h.imp_right And.right

theorem skipToToken_succ {c : Cursor} (hskip : l.cursor.skipWhile l.isSkipped = c) (h : BeginsToken c.rest)
    (fuel : ℕ) : l.skipToToken (fuel + 1) = { l with cursor := c } := by
  have hcomment : c.skipComment = c :=
    Cursor.skipComment_of_head fun heq => absurd (h '#' heq) (by decide)
  have hskip : (l.cursor.skipWhile fun x => x == ' ' || ((l.inFlow || !l.keyAllowed) && x == '\t')) = c := hskip
  rw [skipToToken]
  simp only [hskip, hcomment]
  split
  · rename_i x rest hrest
    have hbreak := h.stopsGap x (by rw [hrest]; rfl)
    rw [Bool.or_eq_false_iff] at hbreak
    rw [if_neg (by simp [hbreak.2])]
  · rfl

theorem skipToToken_of_beginsToken (h : BeginsToken l.cursor.rest) (fuel : ℕ) : l.skipToToken fuel = l := by
  cases fuel with
  | zero => rfl
  | succ fuel =>
    have hskip : l.cursor.skipWhile l.isSkipped = l.cursor :=
      Cursor.skipWhile_of_stopsAt (h.not_isSpace.mono fun x => isSpace_of_isSkipped)
    exact skipToToken_succ hskip h fuel

theorem skipToToken_blank {rest : List Char} (h : BeginsToken rest) (taken i n k fuel : ℕ) :
    (atValue taken ⟨' ' :: rest, i, n, k⟩).skipToToken (fuel + 1) =
      atValue taken ⟨rest, i + 1, n, k + 1⟩ := by
  have hstop : StopsAt (atValue taken ⟨' ' :: rest, i, n, k⟩).isSkipped rest :=
    h.not_isSpace.mono fun x => isSpace_of_isSkipped
  have htake : (' ' :: rest).takeWhile (atValue taken ⟨' ' :: rest, i, n, k⟩).isSkipped = [' '] :=
    takeWhile_cut (List.forall_mem_singleton.2 rfl) hstop
  refine skipToToken_succ ?_ h fuel
  rw [Cursor.skipWhile]
  change Cursor.advance ((' ' :: rest).takeWhile _).length _ = _
  rw [htake]
  rfl

theorem skipToToken_newline {rest : List Char} (h : BeginsToken rest) (taken i n k fuel : ℕ) :
    (atValue taken ⟨'\n' :: rest, i, n, k⟩).skipToToken (fuel + 1) =
      atEntry true taken ⟨rest, i + 1, n + 1, 0⟩ := by
  have hline : (atValue taken ⟨'\n' :: rest, i, n, k⟩).skipToToken (fuel + 1) =
      (atEntry true taken ⟨rest, i + 1, n + 1, 0⟩).skipToToken fuel := by
    simp [skipToToken, atValue, atEntry, Cursor.skipWhile, Cursor.skipComment, Cursor.advance, Cursor.nextLine,
      isBreak, Lexer.inFlow]
  rw [hline, skipToToken_of_beginsToken h]

/-- What comes before a token does not matter for it. -/
theorem fetch_congr
    (h : l.skipToToken (l.cursor.rest.length + 1) = l'.skipToToken (l'.cursor.rest.length + 1)) :
    l.fetch = l'.fetch := by
  rw [fetch, h, ← fetch]

/-- Two lexers with nothing left to give out run alike if they go to the same token. -/
theorem run_congr (hqueue : l.queue = []) (hqueue' : l'.queue = [])
    (h : l.skipToToken (l.cursor.rest.length + 1) = l'.skipToToken (l'.cursor.rest.length + 1)) (fuel : ℕ) :
    run fuel l = run fuel l' := by
  cases fuel with
  | zero => rfl
  | succ fuel => rw [run, run, hqueue, hqueue', fetch_congr h]

/-! ## Tokens -/

theorem closeBlocks_of_le {column : ℤ} (h : l.indent ≤ column) : l.closeBlocks column = l := by
  rw [closeBlocks]
  split
  · rfl
  · cases l.outerIndents with
    | nil => rfl
    | cons outer rest => exact if_neg (by omega)

/-- Where the next token is fetched at once. -/
structure IsCalm (l : Lexer) : Prop where
  begins : BeginsToken l.cursor.rest
  keys : l.dropStaleKeys = some l
  indent : l.indent ≤ l.cursor.column
  flow : l.outerKeys = []
  mark : l.cursor.atDocumentMark = false

theorem IsCalm.inFlow (h : IsCalm l) : l.inFlow = false := by rw [Lexer.inFlow, h.flow]; rfl

/-- No indicator that stands for more than itself begins here. -/
structure BeginsWord (x : Char) (rest : List Char) : Prop where
  lead : isLeadingIndicator x = false
  mark : ((x == '?' || x == ':' || x == '-') && endsWord rest) = false
  space : isSpace x = false

theorem BeginsWord.beginsPlain {x : Char} {rest : List Char} (h : BeginsWord x rest) :
    beginsPlain false x rest = true := by
  obtain ⟨hlead, hmark, hspace⟩ := h
  cases hcase : x == '?' || x == ':' || x == '-' with
  | false =>
    have hindicator : isIndicator x = false := by
      simp only [isLeadingIndicator, isIndicator, Bool.or_eq_false_iff] at hlead hcase ⊢
      simp [hlead, hcase]
    simp [Lexer.beginsPlain, hindicator, hspace]
  | true =>
    rw [hcase, Bool.true_and] at hmark
    have hhead : rest.head?.any isSpace = false := by
      cases rest with
      | nil => rfl
      | cons y rest => exact (Bool.or_eq_false_iff.1 hmark).1
    simp only [Lexer.beginsPlain, hhead, hmark, Bool.not_false, Bool.and_true, Bool.true_and,
      Bool.or_eq_true] at hcase ⊢
    tauto

theorem IsCalm.fetch_plain (h : IsCalm l) {x : Char} {rest : List Char} (hrest : l.cursor.rest = x :: rest)
    (hword : BeginsWord x rest) : l.fetch = l.fetchPlain := by
  rw [fetch, skipToToken_of_beginsToken h.begins, h.keys, Option.bind_eq_bind, Option.bind_some]
  have hbegins := hword.beginsPlain
  obtain ⟨hlead, hmark, -⟩ := hword
  simp only [isLeadingIndicator, isFlowIndicator, Bool.or_eq_false_iff, beq_eq_false_iff_ne] at hlead
  have hends : endsWord rest = true → x ≠ '?' ∧ x ≠ ':' ∧ x ≠ '-' := fun hends => by
    rw [hends, Bool.and_true] at hmark
    simpa [and_assoc] using hmark
  have hdash : ¬ (x = '-' ∧ endsWord rest = true) := fun h => (hends h.2).2.2 h.1
  have hquestion : ¬ (x = '?' ∧ endsWord rest = true) := fun h => (hends h.2).1 h.1
  have hcolon : ¬ (x = ':' ∧ endsWord rest = true) := fun h => (hends h.2).2.1 h.1
  simp only [closeBlocks_of_le h.indent, hrest, h.mark, h.inFlow, hlead, hbegins, Bool.false_eq_true,
    false_or, hdash, hquestion, hcolon, and_false, false_and, if_false, if_true]

theorem IsCalm.fetch_value (h : IsCalm l) {rest : List Char} (hrest : l.cursor.rest = ':' :: rest)
    (hends : endsWord rest = true) : l.fetch = l.fetchValue := by
  rw [fetch, skipToToken_of_beginsToken h.begins, h.keys, Option.bind_eq_bind, Option.bind_some]
  simp only [closeBlocks_of_le h.indent, hrest, h.mark, h.inFlow, hends]
  simp

theorem IsCalm.fetch_quoted (h : IsCalm l) {quote : Char} {rest : List Char}
    (hrest : l.cursor.rest = quote :: rest) (hquote : quote = '\'' ∨ quote = '"') :
    l.fetch = l.fetchQuoted quote := by
  rw [fetch, skipToToken_of_beginsToken h.begins, h.keys, Option.bind_eq_bind, Option.bind_some]
  simp only [closeBlocks_of_le h.indent, hrest, h.mark, h.inFlow]
  rcases hquote with rfl | rfl <;> simp

theorem IsCalm.fetch_block (h : IsCalm l) {rest : List Char} (hrest : l.cursor.rest = '|' :: rest) :
    l.fetch = l.fetchBlockText .literal := by
  rw [fetch, skipToToken_of_beginsToken h.begins, h.keys, Option.bind_eq_bind, Option.bind_some]
  simp only [closeBlocks_of_le h.indent, hrest, h.mark, h.inFlow]
  simp

theorem IsCalm.fetch_end (h : IsCalm l) (hrest : l.cursor.rest = []) : l.fetch = l.fetchEnd := by
  rw [fetch, skipToToken_of_beginsToken h.begins, h.keys, Option.bind_eq_bind, Option.bind_some]
  simp only [closeBlocks_of_le h.indent, hrest]

theorem fetchPlain_eq (hkey : l.keyAllowed = false) {text : List Char} {gap : Gap} {c : Cursor}
    (h : plainText l.inFlow (l.indent + 1).toNat (l.cursor.rest.length + 1) [] Gap.none l.cursor =
      some (text, gap, c)) :
    l.fetchPlain =
      some { l.push (.scalar .plain text) with cursor := c, keyAllowed := gap.firstBreak.isSome } := by
  rw [fetchPlain, markKey, hkey, if_neg (by decide), Option.bind_eq_bind, Option.bind_some, h]
  rfl

theorem fetchQuoted_eq (hkey : l.keyAllowed = false) {quote : Char} {text : List Char} {c : Cursor}
    (h : quotedText quote (l.cursor.rest.length + 1) [] (l.cursor.advance 1) = some (text, c)) :
    l.fetchQuoted quote = some { l.push (.scalar .quoted text) with cursor := c, keyAllowed := false } := by
  rw [fetchQuoted, markKey, hkey, if_neg (by decide), Option.bind_eq_bind, Option.bind_some, h]
  rfl

theorem fetchBlockText_eq (hkey : l.key = none) {text : List Char} {c : Cursor}
    (h : blockText true l.indent (l.cursor.advance 1) = some (text, c)) :
    l.fetchBlockText .literal =
      some { l.push (.scalar .literal text) with cursor := c, keyAllowed := true } := by
  rw [fetchBlockText, removeKey, hkey, Option.bind_eq_bind, Option.bind_some]
  change (blockText true l.indent (l.cursor.advance 1) >>= _) = _
  rw [h]
  rfl

end ClusterPackages.Yaml.Lexer
