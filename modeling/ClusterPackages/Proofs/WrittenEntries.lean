import ClusterPackages.Proofs.BlockLeaf
import ClusterPackages.Proofs.LexerRuns

/-! Entries cut into tokens. A line with one entry becomes a key and a value, whatever the value
says; the first one opens the mapping, and the end of the text closes it. -/

namespace ClusterPackages.Yaml

open Text

/-! ## Allowed characters -/

theorem isAllowed_of_isWritable {c : Char} (h : isWritable c = true) : isAllowed c = true := by
  simp only [isWritable, isAllowed, Bool.or_eq_true, Bool.and_eq_true, beq_iff_eq, decide_eq_true_eq,
    bne_iff_ne] at h ⊢
  tauto

theorem isAllowed_hexFixed (width n : ℕ) : ∀ c ∈ hexFixed width n, isAllowed c = true := by
  have hdigit : ∀ d < 16, isAllowed (upperHexDigit d) = true := by decide
  induction width generalizing n with
  | zero => simp [hexFixed]
  | succ width ih =>
    rw [hexFixed, List.forall_mem_append, List.forall_mem_singleton]
    exact ⟨ih _, hdigit _ (Nat.mod_lt n (by decide))⟩

theorem isAllowed_escaped (x : Char) : ∀ c ∈ escaped x, isAllowed c = true := by
  rw [escaped.eq_def]
  split
  all_goals try exact List.all_eq_true.1 (by decide)
  dsimp only
  split_ifs
  all_goals
    refine List.forall_mem_cons.2 ⟨rfl, List.forall_mem_cons.2 ⟨rfl, isAllowed_hexFixed _ _⟩⟩

theorem isAllowed_doubleQuoted (cs : List Char) : ∀ c ∈ doubleQuoted cs, isAllowed c = true := by
  rw [doubleQuoted_eq, List.forall_mem_cons, List.forall_mem_append, List.forall_mem_singleton]
  refine ⟨rfl, fun c hc => ?_, rfl⟩
  obtain ⟨x, -, hx⟩ := List.mem_flatMap.1 hc
  rw [inDoubleQuotes] at hx
  split_ifs at hx with h
  · exact isAllowed_escaped x c hx
  · simp only [Bool.or_eq_true, Bool.not_eq_true', not_or, Bool.not_eq_false] at h
    rw [List.mem_singleton.1 hx]
    exact isAllowed_of_isWritable h.1.1.1

theorem eq_blank_of_mem_indentation {n : ℕ} {b : Bool} {c : Char}
    (h : c ∈ (if b = true then indentation n else [])) : c = ' ' := by
  split_ifs at h
  · exact List.eq_of_mem_replicate h
  · cases h

theorem eq_of_mem_inSingleQuotes {x c : Char} (h : c ∈ inSingleQuotes x) : c = x ∨ c = '\'' := by
  rw [inSingleQuotes] at h
  split_ifs at h
  · exact .inr (by simpa using h)
  · exact .inl (by simpa using h)

theorem mem_singleQuotedGo {n : ℕ} {cs : List Char} {afterBreak : Bool} {c : Char}
    (h : c ∈ singleQuoted.go n afterBreak cs) : c ∈ cs ∨ c = ' ' ∨ c = '\'' := by
  induction cs generalizing afterBreak with
  | nil => exact .inr (.inl (eq_blank_of_mem_indentation h))
  | cons x cs ih =>
    rw [singleQuoted.go] at h
    by_cases hbreak : isBreak x = true
    · rw [if_pos hbreak] at h
      rcases List.mem_cons.1 h with rfl | h
      · exact .inl List.mem_cons_self
      · exact (ih h).imp_left (List.mem_cons_of_mem x)
    · rw [if_neg hbreak] at h
      rcases List.mem_append.1 h with h | h
      · rcases List.mem_append.1 h with h | h
        · exact .inr (.inl (eq_blank_of_mem_indentation h))
        · exact (eq_of_mem_inSingleQuotes h).imp (fun heq => List.mem_cons.2 (.inl heq)) .inr
      · exact (ih h).imp_left (List.mem_cons_of_mem x)

theorem mem_blockGo {n : ℕ} {cs : List Char} {lineStart : Bool} {c : Char}
    (h : c ∈ block.go n lineStart cs) : c ∈ cs ∨ c = ' ' := by
  induction cs generalizing lineStart with
  | nil => cases h
  | cons x cs ih =>
    rw [block.go] at h
    by_cases hbreak : isBreak x = true
    · rw [if_pos hbreak] at h
      rcases List.mem_cons.1 h with rfl | h
      · exact .inl List.mem_cons_self
      · exact (ih h).imp_left (List.mem_cons_of_mem x)
    · rw [if_neg hbreak] at h
      rcases List.mem_append.1 h with h | h
      · exact .inr (eq_blank_of_mem_indentation h)
      · rcases List.mem_cons.1 h with rfl | h
        · exact .inl List.mem_cons_self
        · exact (ih h).imp_left (List.mem_cons_of_mem x)

theorem isAllowed_leaf (s : String) : ∀ c ∈ leaf indentStep s, isAllowed c = true := by
  have hwritable (h : needsEscapes s.toList = false) (c : Char) (hc : c ∈ s.toList) : isAllowed c = true :=
    isAllowed_of_isWritable (isWritable_of_needsEscapes h c hc)
  rw [leaf]
  split_ifs with hline hblock hplain hsingle
  · simp only [isBlockWritable, Bool.and_eq_true, Bool.not_eq_true'] at hblock
    rw [block_eq, List.forall_mem_cons, List.forall_mem_append, List.forall_mem_append, List.forall_mem_cons]
    refine ⟨rfl, ?_, ?_, rfl, fun c hc => ?_⟩
    · rw [blockMark]
      split_ifs <;> exact List.all_eq_true.1 (by decide)
    · have hmark : ∀ mark ∈ [[], ['-'], ['+']], mark.all isAllowed = true := by decide
      exact List.all_eq_true.1 (hmark _ (chompingMark_mem _))
    · rcases mem_blockGo hc with hc | rfl
      · exact hwritable hblock.1.2 c hc
      · rfl
  · exact isAllowed_doubleQuoted _
  · simp only [isPlainWritable, Bool.and_eq_true, Bool.not_eq_true'] at hplain
    exact hwritable hplain.2.1.1.1.2
  · simp only [isSingleQuotable, Bool.and_eq_true, Bool.not_eq_true'] at hsingle
    rw [singleQuoted_eq, List.forall_mem_cons, List.forall_mem_append, List.forall_mem_singleton]
    refine ⟨rfl, fun c hc => ?_, rfl⟩
    rcases mem_singleQuotedGo hc with hc | rfl | rfl
    · exact hwritable hsingle.1 c hc
    · rfl
    · rfl
  · exact isAllowed_doubleQuoted _

/-- A line begins with its key. -/
theorem exists_entryLine (key value : String) : ∃ rest, entryLine key value = key.toList ++ rest := by
  rw [entryLine]
  split_ifs
  · exact ⟨_, rfl⟩
  · exact ⟨_, List.append_assoc _ _ _⟩

theorem isAllowed_entryLine {key : String} (hkey : ∀ c ∈ key.toList, isAllowed c = true) (value : String) :
    ∀ c ∈ entryLine key value, isAllowed c = true := by
  have htext : ∀ c ∈ key.toList ++ ':' :: ' ' :: leaf indentStep value, isAllowed c = true :=
    List.forall_mem_append.2 ⟨hkey, List.forall_mem_cons.2 ⟨rfl, List.forall_mem_cons.2
      ⟨rfl, isAllowed_leaf value⟩⟩⟩
  rw [entryLine]
  split_ifs
  · exact htext
  · exact List.forall_mem_append.2 ⟨htext, List.forall_mem_singleton.2 rfl⟩

namespace Lexer

/-! ## Keys -/

def isKeyChar (c : Char) : Bool :=
  isInWord c && c != ':' && c != '?' && c != '-' && c != '.' && !isLeadingIndicator c

/-- Names of fields. -/
structure IsKey (key : List Char) : Prop where
  nonempty : key ≠ []
  chars : ∀ c ∈ key, isKeyChar c = true
  length : key.length ≤ keyLengthLimit

instance (key : List Char) : Decidable (IsKey key) :=
  decidable_of_iff (key ≠ [] ∧ key.all isKeyChar = true ∧ key.length ≤ keyLengthLimit)
    ⟨fun ⟨h, h', h''⟩ => ⟨h, List.all_eq_true.1 h', h''⟩,
      fun h => ⟨h.nonempty, List.all_eq_true.2 h.chars, h.length⟩⟩

theorem isDocumentMark_cons {x : Char} (hdash : x ≠ '-') (hdot : x ≠ '.') (rest : List Char) :
    isDocumentMark (x :: rest) = false := by
  rw [isDocumentMark.eq_def]
  split
  · exact absurd (List.cons.inj ‹_›).1 hdash
  · exact absurd (List.cons.inj ‹_›).1 hdot
  · rfl

/-- A key stands where no indicator could. -/
theorem IsKey.exists_cons {key : List Char} (h : IsKey key) (rest : List Char) :
    ∃ x xs, key ++ rest = x :: xs ∧ BeginsWord x xs ∧ isBreak x = false ∧ x ≠ '#' ∧
      isDocumentMark (x :: xs) = false := by
  obtain ⟨x, xs, rfl⟩ := List.exists_cons_of_ne_nil h.nonempty
  have hx := h.chars x List.mem_cons_self
  simp only [isKeyChar, isInWord, Bool.and_eq_true, Bool.not_eq_true', bne_iff_ne] at hx
  obtain ⟨⟨⟨⟨⟨⟨hspace, hbreak⟩, hcolon⟩, hquestion⟩, hdash⟩, hdot⟩, hlead⟩ := hx
  exact ⟨x, xs ++ rest, rfl, ⟨hlead, by simp [hcolon, hquestion, hdash], hspace⟩, hbreak,
    fun heq => absurd (heq ▸ hlead) (by decide), isDocumentMark_cons hdash hdot _⟩

theorem IsKey.beginsToken {key : List Char} (h : IsKey key) (rest : List Char) :
    BeginsToken (key ++ rest) := by
  obtain ⟨x, xs, hcons, hword, hbreak, hsharp, -⟩ := h.exists_cons rest
  rw [hcons]
  exact stopsAt_cons (by simp [hword.space, hbreak, hsharp])

theorem plainWord_key {key : List Char} (hkey : ∀ c ∈ key, isKeyChar c = true) (rest : List Char) :
    plainWord false (key ++ ':' :: ' ' :: rest) = some key := by
  induction key with
  | nil => rfl
  | cons c key ih =>
    obtain ⟨hc, hkey⟩ := List.forall_mem_cons.1 hkey
    simp only [isKeyChar, isInWord, Bool.and_eq_true, Bool.not_eq_true', bne_iff_ne] at hc
    rw [List.cons_append, plainWord.eq_def]
    simp [hc, ih hkey]

theorem plainText_key {key : List Char} (hkey : IsKey key) {rest : List Char} {c : Cursor}
    (hc : c.rest = key ++ ':' :: ' ' :: rest) (column fuel : ℕ) :
    plainText false column (fuel + 1) [] Gap.none c = some (key, Gap.none, c.advance key.length) := by
  have hword := plainWord_key hkey.chars rest
  have hnext := Cursor.rest_advance_append hc
  obtain ⟨x, xs, hcons, -, -, hsharp, hdocument⟩ := hkey.exists_cons (':' :: ' ' :: rest)
  have hmark : ¬ (c.atDocumentMark || decide (c.rest.head? = some '#')) = true := by
    rw [Cursor.atDocumentMark, hc, hcons, hdocument]
    simp [hsharp]
  rw [plainText, if_neg hmark, hc, hword, Option.bind_eq_bind, Option.bind_some, if_neg hkey.nonempty]
  simp only [hnext, endsWord]
  simp [isSpace, isBreak, Gap.none, Gap.folded]

/-- What a key gives; the first one opens the mapping. -/
def keyTokens (opened : Bool) (key : List Char) : List Token :=
  (if opened then [] else [.blockMappingStart]) ++ [.key, .scalar .plain key, .value]

/-- A word that turns out to be a key at its colon. -/
def atColon (opened : Bool) (taken : ℕ) (key rest : List Char) (i n : ℕ) : Lexer :=
  { atEntry opened taken ⟨':' :: rest, i + key.length, n, key.length⟩ with
    queue := [.scalar .plain key]
    keyAllowed := false
    key := some ⟨taken, opened, i, n, 0⟩ }

theorem fetch_key {key : List Char} (hkey : IsKey key) (opened : Bool) (taken i n : ℕ) (rest : List Char) :
    (atEntry opened taken ⟨key ++ ':' :: ' ' :: rest, i, n, 0⟩).fetch =
      some (atColon opened taken key (' ' :: rest) i n) := by
  obtain ⟨x, xs, hcons, hword, -, -, hdocument⟩ := hkey.exists_cons (':' :: ' ' :: rest)
  have hcalm : IsCalm (atEntry opened taken ⟨key ++ ':' :: ' ' :: rest, i, n, 0⟩) := by
    refine ⟨hkey.beginsToken _, dropStaleKeys_of_no_key rfl rfl, indent_atEntry_le _ _ _ _, rfl, ?_⟩
    rw [atEntry, Cursor.atDocumentMark, hcons, hdocument, Bool.and_false]
  have hread (column fuel : ℕ) := plainText_key hkey (c := ⟨key ++ ':' :: ' ' :: rest, i, n, 0⟩) rfl column fuel
  have hmark : (atEntry opened taken ⟨key ++ ':' :: ' ' :: rest, i, n, 0⟩).markKey =
      some { atEntry opened taken ⟨key ++ ':' :: ' ' :: rest, i, n, 0⟩ with
        key := some ⟨taken, opened, i, n, 0⟩ } := by
    cases opened <;> rfl
  rw [hcalm.fetch_plain hcons hword, fetchPlain, hmark, Option.bind_eq_bind, Option.bind_some]
  simp only [Lexer.inFlow, atEntry, List.isEmpty_nil, Bool.not_true, hread, Option.bind_eq_bind,
    Option.bind_some]
  simp [atColon, atEntry, push, Gap.none, Cursor.advance]

theorem dropStaleKeys_atColon {key : List Char} (hkey : IsKey key) (opened : Bool) (taken i n : ℕ)
    (rest : List Char) :
    (atColon opened taken key rest i n).dropStaleKeys = some (atColon opened taken key rest i n) := by
  have hfresh : (atColon opened taken key rest i n).isStale ⟨taken, opened, i, n, 0⟩ = false := by
    have hlength := hkey.length
    simp [isStale, atColon, atEntry, hlength]
  have hkeep : (atColon opened taken key rest i n).dropStaleMark (some ⟨taken, opened, i, n, 0⟩) =
      some (some ⟨taken, opened, i, n, 0⟩) := by
    rw [dropStaleMark, hfresh]
    rfl
  rw [dropStaleKeys]
  change (some [] >>= fun outerKeys => dropStaleMark _ (some _) >>= _) = _
  simp only [Option.bind_eq_bind, Option.bind_some, hkeep]
  rfl

theorem fetch_colon {key : List Char} (hkey : IsKey key) (opened : Bool) (taken i n : ℕ) (rest : List Char) :
    (atColon opened taken key (' ' :: rest) i n).fetch =
      some { atValue taken ⟨' ' :: rest, i + key.length + 1, n, key.length + 1⟩ with
        queue := keyTokens opened key } := by
  have hcalm : IsCalm (atColon opened taken key (' ' :: rest) i n) := by
    refine ⟨stopsAt_cons rfl, dropStaleKeys_atColon hkey opened taken i n _,
      indent_atEntry_le opened taken ⟨[], 0, 0, 0⟩ _, rfl, ?_⟩
    exact Bool.and_eq_false_iff.2 (.inr (isDocumentMark_cons (by decide) (by decide) _))
  rw [hcalm.fetch_value rfl rfl]
  cases opened <;>
    simp [fetchValue, atColon, atValue, atEntry, insertAt, openBlock, push, skip, keyTokens, Cursor.advance,
      Lexer.inFlow]

theorem reads_key {key : List Char} (hkey : IsKey key) (opened : Bool) (taken i n : ℕ) (rest : List Char) :
    Reads (atEntry opened taken ⟨key ++ ':' :: ' ' :: rest, i, n, 0⟩) ((keyTokens opened key).length + 2)
      (keyTokens opened key)
      (atValue (taken + (keyTokens opened key).length)
        ⟨' ' :: rest, i + key.length + 1, n, key.length + 1⟩) := by
  -- The word waits until the colon shows that it is a key; then all tokens are given out.
  have hfirst := reads_fetch rfl (fetch_key hkey opened taken i n rest)
  have hsecond : Reads (atColon opened taken key (' ' :: rest) i n) 1 []
      { atValue taken ⟨' ' :: rest, i + key.length + 1, n, key.length + 1⟩ with
        queue := keyTokens opened key } := by
    intro fuel
    have hhead : (atColon opened taken key (' ' :: rest) i n).headMayBeKey = true := by
      simp [headMayBeKey, atColon, atEntry]
    have hqueue : (atColon opened taken key (' ' :: rest) i n).queue = [.scalar .plain key] := rfl
    rw [run, hqueue]
    simp only [dropStaleKeys_atColon hkey, hhead, if_true, fetch_colon hkey]
    rfl
  have hqueue := reads_queue (l := { atValue taken ⟨' ' :: rest, i + key.length + 1, n, key.length + 1⟩ with
    queue := keyTokens opened key }) rfl rfl rfl (by cases opened <;> simp [keyTokens])
  exact (hfirst.trans hsecond).trans hqueue

/-! ## Leaves -/

theorem fetch_blank {rest : List Char} (h : BeginsToken rest) (taken i n k : ℕ) :
    (atValue taken ⟨' ' :: rest, i, n, k⟩).fetch = (atValue taken ⟨rest, i + 1, n, k + 1⟩).fetch :=
  fetch_congr ((skipToToken_blank h taken i n k _).trans (skipToToken_of_beginsToken h _).symm)

theorem isCalm_atValue {rest : List Char} (h : BeginsToken rest) (taken i n k : ℕ) :
    IsCalm (atValue taken ⟨rest, i, n, k + 1⟩) :=
  ⟨h, dropStaleKeys_of_no_key rfl rfl, indent_atEntry_le true taken ⟨rest, i, n, k + 1⟩ _, rfl, rfl⟩

theorem reads_plain {cs more : List Char} (h : isPlainWritable cs = true) (hne : cs ≠ [])
    (hmore : BeginsToken more) (taken i n k : ℕ) :
    ∃ i' n', Reads (atValue taken ⟨' ' :: (cs ++ '\n' :: more), i, n, k⟩) 2 [.scalar .plain cs]
      (atEntry true (taken + 1) ⟨more, i', n', 0⟩) := by
  have hplain := isPlain_of_isPlainWritable h hne
  have hsharp := hplain.head?_ne_sharp ('\n' :: more)
  have hbegins : BeginsToken (cs ++ '\n' :: more) := by
    obtain ⟨x, xs, rfl⟩ := List.exists_cons_of_ne_nil hne
    have hx : x ≠ '#' := by simpa using hsharp
    exact stopsAt_cons (by simp [hplain.begins x rfl, hplain.noBreak x (by simp), hx])
  obtain ⟨x, xs, rfl⟩ := List.exists_cons_of_ne_nil hne
  have hword : BeginsWord x (xs ++ '\n' :: more) := by
    have hindicator : hasIndicator (x :: xs) = false := by
      simp only [isPlainWritable, Bool.and_eq_true, Bool.not_eq_true'] at h
      exact h.1.1.1.1
    obtain ⟨hlead, hmark, -⟩ := hasIndicator_cons hindicator
    refine ⟨hlead, ?_, hplain.begins x rfl⟩
    rw [Bool.and_eq_false_iff] at hmark ⊢
    exact hmark.imp_right fun h => Bool.eq_false_iff.2 fun hw => absurd (endsWord_append_break hw) (by simp [h])
  obtain ⟨i', n', hread⟩ := plainText_eq hplain hmore.stopsGap Nat.one_pos
    (c := ⟨x :: xs ++ '\n' :: more, i + 1, n, k + 1⟩) rfl (Nat.succ_pos k)
    (show (x :: xs).length ≤ (x :: xs ++ '\n' :: more).length + 1 by simp; omega) [] Gap.none
  have hfetch : (atValue taken ⟨' ' :: (x :: xs ++ '\n' :: more), i, n, k⟩).fetch =
      some { atEntry true taken ⟨more, i', n', 0⟩ with queue := [.scalar .plain (x :: xs)] } := by
    rw [fetch_blank hbegins, (isCalm_atValue hbegins taken (i + 1) n k).fetch_plain rfl hword]
    exact fetchPlain_eq (l := atValue taken ⟨x :: xs ++ '\n' :: more, i + 1, n, k + 1⟩) rfl hread
  exact ⟨i', n', (reads_fetch rfl hfetch).trans (reads_queue (l :=
    { atEntry true taken ⟨more, i', n', 0⟩ with queue := [.scalar .plain (x :: xs)] }) rfl rfl rfl (by simp))⟩

theorem reads_quoted {quote : Char} {written text more : List Char} (h : Quoted quote written text)
    (hquote : quote = '\'' ∨ quote = '"') (hmore : BeginsToken more) (taken i n k : ℕ) :
    ∃ i' n', Reads (atValue taken ⟨' ' :: quote :: (written ++ quote :: '\n' :: more), i, n, k⟩) 2
      [.scalar .quoted text] (atEntry true (taken + 1) ⟨more, i', n', 0⟩) := by
  have hword : isInWord quote = true := by rcases hquote with rfl | rfl <;> rfl
  have hbegins : BeginsToken (quote :: (written ++ quote :: '\n' :: more)) := by
    rcases hquote with rfl | rfl <;> exact stopsAt_cons rfl
  have hhead : ('\n' :: more).head? ≠ some '\'' := by simp
  obtain ⟨c, hread, hrest⟩ := quotedText_eq h hword hhead
    (c := ⟨written ++ quote :: '\n' :: more, i + 1 + 1, n, k + 1 + 1⟩) (Nat.succ_pos _) rfl
    (show written.length < (quote :: (written ++ quote :: '\n' :: more)).length + 1 by simp; omega) []
  obtain ⟨rest, i', n', k'⟩ := c
  cases hrest
  have hfetch : (atValue taken ⟨' ' :: quote :: (written ++ quote :: '\n' :: more), i, n, k⟩).fetch =
      some { atValue taken ⟨'\n' :: more, i', n', k'⟩ with queue := [.scalar .quoted text] } := by
    rw [fetch_blank hbegins, (isCalm_atValue hbegins taken (i + 1) n k).fetch_quoted rfl hquote]
    exact fetchQuoted_eq rfl hread
  have hqueue := reads_queue (l :=
    { atValue taken ⟨'\n' :: more, i', n', k'⟩ with queue := [.scalar .quoted text] }) rfl rfl rfl (by simp)
  -- The lexer stands before the line break; going over it makes no difference.
  refine ⟨i' + 1, n' + 1, ((reads_fetch rfl hfetch).trans hqueue).of_run_eq (run_congr rfl rfl ?_)⟩
  exact (skipToToken_newline hmore (taken + 1) i' n' k' _).trans (skipToToken_of_beginsToken hmore _).symm

theorem reads_block {cs tail : List Char} (h : isBlockWritable cs = true) (htail : tail = [] ∨ tail = ['\n'])
    (taken i n k : ℕ) :
    ∃ text c', Reads (atValue taken ⟨' ' :: (block indentStep cs ++ tail), i, n, k⟩) 2
      [.scalar .literal text] (atEntry true (taken + 1) c') ∧ c'.rest = [] := by
  have hcons : ∃ rest, block indentStep cs ++ tail = '|' :: rest := ⟨_, by rw [block_eq, List.cons_append]⟩
  obtain ⟨rest, hrest⟩ := hcons
  have hbegins : BeginsToken ('|' :: rest) := stopsAt_cons rfl
  obtain ⟨text, c', hread, hend⟩ := blockText_block h htail (c := ⟨rest, i + 1 + 1, n, k + 1 + 1⟩) hrest.symm
  have hfetch : (atValue taken ⟨' ' :: '|' :: rest, i, n, k⟩).fetch =
      some { atEntry true taken c' with queue := [.scalar .literal text] } := by
    rw [fetch_blank hbegins, (isCalm_atValue hbegins taken (i + 1) n k).fetch_block rfl]
    exact fetchBlockText_eq rfl hread
  have hqueue := reads_queue (l := { atEntry true taken c' with queue := [.scalar .literal text] }) rfl rfl rfl
    (by simp)
  rw [hrest]
  exact ⟨text, c', (reads_fetch rfl hfetch).trans hqueue, hend⟩

/-- How a text is written on its line. -/
inductive IsLeaf (cs : List Char) : (written : List Char) → Prop
  | plain (h : isPlainWritable cs = true) (hne : cs ≠ []) : IsLeaf cs cs
  | quoted {quote : Char} {written : List Char} (hquote : quote = '\'' ∨ quote = '"')
    (h : Quoted quote written cs) : IsLeaf cs (quote :: (written ++ [quote]))

theorem isLeaf_doubleQuoted (cs : List Char) : IsLeaf cs (doubleQuoted cs) :=
  .quoted (.inr rfl) (quoted_inDoubleQuotes cs)

/-- Only texts with a newline are written as blocks. -/
theorem isLeaf_leaf {s : String} (h : '\n' ∈ s.toList → isBlockWritable s.toList = false) :
    IsLeaf s.toList (leaf indentStep s) := by
  rw [leaf]
  split_ifs with hline hblock hplain hsingle
  · rw [h (List.contains_iff_mem.1 hline)] at hblock
    cases hblock
  · exact isLeaf_doubleQuoted _
  · rw [Bool.and_eq_true, Bool.not_eq_true'] at hplain
    refine .plain hplain.2 fun hnil => ?_
    obtain rfl : s = "" := String.toList_eq_nil_iff.1 hnil
    exact absurd hplain.1 (by decide)
  · have hquotable := IsQuotable.of_isSingleQuotable hsingle fun hmem => hline (List.contains_iff_mem.2 hmem)
    exact .quoted (.inl rfl) (quoted_go 1 hquotable)
  · exact isLeaf_doubleQuoted _

theorem IsLeaf.getLast?_ne {cs written : List Char} (h : IsLeaf cs written) :
    ∃ c, written.getLast? = some c ∧ c ≠ '\n' := by
  cases h with
  | plain h hne =>
    obtain ⟨c, hc⟩ := Option.isSome_iff_exists.1 (List.getLast?_isSome.2 hne)
    have hbreak := (isPlain_of_isPlainWritable h hne).noBreak c (List.mem_of_getLast? hc)
    exact ⟨c, hc, fun heq => absurd (heq ▸ hbreak) (by decide)⟩
  | @quoted quote written hquote _ =>
    refine ⟨quote, by rw [← List.cons_append, List.getLast?_concat], ?_⟩
    rcases hquote with rfl | rfl <;> decide

theorem IsLeaf.reads {cs written more : List Char} (h : IsLeaf cs written) (hmore : BeginsToken more)
    (taken i n k : ℕ) :
    ∃ style i' n', Reads (atValue taken ⟨' ' :: (written ++ '\n' :: more), i, n, k⟩) 2 [.scalar style cs]
      (atEntry true (taken + 1) ⟨more, i', n', 0⟩) := by
  cases h with
  | plain h hne => exact ⟨.plain, reads_plain h hne hmore taken i n k⟩
  | @quoted quote written hquote h =>
    have hreads := reads_quoted h hquote hmore taken i n k
    rw [List.cons_append, List.append_assoc]
    exact ⟨.quoted, hreads⟩

/-! ## Entries -/

/-- What an entry gives. -/
def entryTokens (opened : Bool) (key : String) (style : ScalarStyle) (text : List Char) : List Token :=
  keyTokens opened key.toList ++ [.scalar style text]

theorem entryLine_of_isLeaf {key value : String} (h : IsLeaf value.toList (leaf indentStep value)) :
    entryLine key value = key.toList ++ ':' :: ' ' :: (leaf indentStep value ++ ['\n']) := by
  obtain ⟨c, hc, hne⟩ := h.getLast?_ne
  have hlast : (key.toList ++ ':' :: ' ' :: leaf indentStep value).getLast? ≠ some '\n' := by
    simp [List.getLast?_append, List.getLast?_cons, hc, hne]
  rw [entryLine, if_neg hlast, List.append_assoc]
  rfl

/-- The steps for one entry. -/
def entrySteps (opened : Bool) (key : String) : ℕ := 2 + ((keyTokens opened key.toList).length + 2)

theorem beginsToken_entryLine {key : String} (hkey : IsKey key.toList) (value : String) (more : List Char) :
    BeginsToken (entryLine key value ++ more) := by
  obtain ⟨rest, hline⟩ := exists_entryLine key value
  rw [hline, List.append_assoc]
  exact hkey.beginsToken (rest ++ more)

theorem reads_entry {key value : String} (hkey : IsKey key.toList)
    (hvalue : '\n' ∈ value.toList → isBlockWritable value.toList = false) {more : List Char}
    (hmore : BeginsToken more) (opened : Bool) (taken i n : ℕ) :
    ∃ style taken' i' n', Reads (atEntry opened taken ⟨entryLine key value ++ more, i, n, 0⟩)
      (entrySteps opened key) (entryTokens opened key style value.toList)
      (atEntry true taken' ⟨more, i', n', 0⟩) := by
  have hleaf := isLeaf_leaf hvalue
  have hread := reads_key hkey opened taken i n (leaf indentStep value ++ '\n' :: more)
  obtain ⟨style, i', n', hrest⟩ := hleaf.reads hmore (taken + (keyTokens opened key.toList).length)
    (i + key.toList.length + 1) n (key.toList.length + 1)
  have hline : entryLine key value ++ more =
      key.toList ++ ':' :: ' ' :: (leaf indentStep value ++ '\n' :: more) := by
    rw [entryLine_of_isLeaf hleaf]
    simp
  rw [hline]
  exact ⟨style, taken + (keyTokens opened key.toList).length + 1, i', n', hread.trans hrest⟩

/-- The last entry may be a block. -/
theorem reads_lastEntry {key : String} (hkey : IsKey key.toList) (value : String) (opened : Bool)
    (taken i n : ℕ) :
    ∃ style text taken' c, Reads (atEntry opened taken ⟨entryLine key value, i, n, 0⟩)
      (entrySteps opened key) (entryTokens opened key style text) (atEntry true taken' c) ∧
      c.rest = [] ∧ ('\n' ∉ value.toList → text = value.toList) := by
  by_cases hblock : '\n' ∈ value.toList ∧ isBlockWritable value.toList = true
  · obtain ⟨tail, htail, hline⟩ : ∃ tail, (tail = [] ∨ tail = ['\n']) ∧
        entryLine key value = key.toList ++ ':' :: ' ' :: (block indentStep value.toList ++ tail) := by
      rw [entryLine, leaf, if_pos (List.contains_iff_mem.2 hblock.1), if_pos hblock.2]
      split_ifs
      · exact ⟨[], .inl rfl, by rw [List.append_nil]⟩
      · exact ⟨['\n'], .inr rfl, by simp⟩
    have hread := reads_key hkey opened taken i n (block indentStep value.toList ++ tail)
    obtain ⟨text, c, hrest, hend⟩ := reads_block hblock.2 htail (taken + (keyTokens opened key.toList).length)
      (i + key.toList.length + 1) n (key.toList.length + 1)
    rw [hline]
    exact ⟨.literal, text, taken + (keyTokens opened key.toList).length + 1, c, hread.trans hrest, hend,
      fun h => absurd hblock.1 h⟩
  · have hvalue : '\n' ∈ value.toList → isBlockWritable value.toList = false := by simpa using hblock
    obtain ⟨style, taken', i', n', hread⟩ := reads_entry hkey hvalue stopsAt_nil opened taken i n
    rw [List.append_nil] at hread
    exact ⟨style, value.toList, taken', ⟨[], i', n', 0⟩, hread, rfl, fun _ => rfl⟩

theorem run_end {c : Cursor} (hc : c.rest = []) (taken fuel : ℕ) :
    run (fuel + 3) (atEntry true taken c) = [.blockEnd, .streamEnd] := by
  have hcalm : IsCalm (atEntry true taken c) := by
    refine ⟨?_, dropStaleKeys_of_no_key rfl rfl, indent_atEntry_le true taken c _, rfl, ?_⟩
    · rw [atEntry, hc]
      exact stopsAt_nil
    · rw [atEntry, Cursor.atDocumentMark, hc]
      exact Bool.and_false _
  have hfetch : (atEntry true taken c).fetch = some { atEntry true taken c with
      queue := [.blockEnd, .streamEnd], indent := -1, outerIndents := [], keyAllowed := false } := by
    rw [hcalm.fetch_end hc]
    rfl
  rw [run]
  simp only [hfetch, show (atEntry true taken c).queue = [] from rfl]
  rfl

end Lexer

end ClusterPackages.Yaml
