import ClusterPackages.Proofs.Cutting
import ClusterPackages.Text.Percent

/-! Segments of addresses. UTF-8 writes each character in one way and reads it back, and so does a percent
sign with each byte; so a text is read back from the segment that it is written as
(`percentDecode_percentSegment`). All characters of a segment are unreserved but the percent signs, and
each of these has two digits behind it (`IsEscaped`), so nothing in it acts as a separator. -/

namespace ClusterPackages.Text

/-! ## UTF-8 -/

theorem toNat_bounds (c : Char) : c.toNat < 0xD800 ∨ 0xDFFF < c.toNat ∧ c.toNat < 0x110000 := c.valid

theorem decodeChar_two {index a b : ℕ} {rest : Bytes} (ha : 0xC2 ≤ a ∧ a < 0xE0)
    (hb : 0x80 ≤ b ∧ b < 0xC0) :
    decodeChar index (a :: b :: rest) =
      .ok (some (Char.ofNat (a % 0x20 * 0x40 + b % 0x40), 2, rest)) := by
  have hlength : sequenceLength a = 2 := by
    simp only [sequenceLength, Bool.and_eq_true, decide_eq_true_eq]
    split_ifs <;> omega
  have hfits : secondFits a b = true := by
    simp only [secondFits, isContinuation, beq_iff_eq]
    split_ifs <;> simp <;> omega
  simp [decodeChar, hlength, hfits]

theorem decodeChar_three {index a b c : ℕ} {rest : Bytes} (ha : 0xE0 ≤ a ∧ a < 0xF0)
    (hb : 0x80 ≤ b ∧ b < 0xC0) (low : a = 0xE0 → 0xA0 ≤ b) (high : a = 0xED → b < 0xA0)
    (hc : 0x80 ≤ c ∧ c < 0xC0) :
    decodeChar index (a :: b :: c :: rest) =
      .ok (some (Char.ofNat ((a % 0x10 * 0x40 + b % 0x40) * 0x40 + c % 0x40), 3, rest)) := by
  have hlength : sequenceLength a = 3 := by
    simp only [sequenceLength, Bool.and_eq_true, decide_eq_true_eq]
    split_ifs <;> omega
  have hfits : secondFits a b = true := by
    simp only [secondFits, isContinuation, beq_iff_eq]
    split_ifs <;> simp <;> omega
  have hthird : isContinuation c = true := by simpa [isContinuation] using hc
  simp [decodeChar, hlength, hfits, hthird]

theorem decodeChar_four {index a b c d : ℕ} {rest : Bytes} (ha : 0xF0 ≤ a ∧ a < 0xF5)
    (hb : 0x80 ≤ b ∧ b < 0xC0) (low : a = 0xF0 → 0x90 ≤ b) (high : a = 0xF4 → b < 0x90)
    (hc : 0x80 ≤ c ∧ c < 0xC0) (hd : 0x80 ≤ d ∧ d < 0xC0) :
    decodeChar index (a :: b :: c :: d :: rest) =
      .ok (some (Char.ofNat
        (((a % 0x08 * 0x40 + b % 0x40) * 0x40 + c % 0x40) * 0x40 + d % 0x40), 4, rest)) := by
  have hlength : sequenceLength a = 4 := by
    simp only [sequenceLength, Bool.and_eq_true, decide_eq_true_eq]
    split_ifs <;> omega
  have hfits : secondFits a b = true := by
    simp only [secondFits, isContinuation, beq_iff_eq]
    split_ifs <;> simp <;> omega
  have hthird : isContinuation c = true := by simpa [isContinuation] using hc
  have hfourth : isContinuation d = true := by simpa [isContinuation] using hd
  simp [decodeChar, hlength, hfits, hthird, hfourth]

/-- A character is read off the front of what it is written as. -/
theorem decodeChar_encodeChar (index : ℕ) (c : Char) (rest : Bytes) :
    ∃ length, decodeChar index (encodeChar c ++ rest) = .ok (some (c, length, rest)) := by
  have hbounds := toNat_bounds c
  have hback {n : ℕ} (h : n = c.toNat) : Char.ofNat n = c := h ▸ Char.ofNat_toNat c
  unfold encodeChar
  dsimp only
  split_ifs with h1 h2 h3
  · refine ⟨1, ?_⟩
    simp [decodeChar, sequenceLength, h1, hback]
  · refine ⟨2, ?_⟩
    rw [List.cons_append, List.cons_append, List.nil_append, decodeChar_two (by omega) (by omega), hback]
    omega
  · refine ⟨3, ?_⟩
    rw [List.cons_append, List.cons_append, List.cons_append, List.nil_append,
      decodeChar_three (by omega) (by omega) (by omega) (by omega) (by omega), hback]
    omega
  · refine ⟨4, ?_⟩
    rw [List.cons_append, List.cons_append, List.cons_append, List.cons_append, List.nil_append,
      decodeChar_four (by omega) (by omega) (by omega) (by omega) (by omega) (by omega), hback]
    omega

theorem encodeChar_ne_nil (c : Char) : encodeChar c ≠ [] := by
  unfold encodeChar
  dsimp only
  split_ifs <;> exact List.cons_ne_nil _ _

theorem decodeFrom_encode {fuel : ℕ} {cs : List Char} (enough : (encode cs).length < fuel) (index : ℕ) :
    decodeFrom fuel index (encode cs) = .ok cs := by
  induction cs generalizing fuel index with
  | nil =>
    obtain ⟨fuel, rfl⟩ := Nat.exists_eq_succ_of_ne_zero (Nat.ne_zero_of_lt enough)
    rfl
  | cons c cs ih =>
    obtain ⟨fuel, rfl⟩ := Nat.exists_eq_succ_of_ne_zero (Nat.ne_zero_of_lt enough)
    have hsplit : encode (c :: cs) = encodeChar c ++ encode cs := List.flatMap_cons
    have hpos := List.length_pos_iff.2 (encodeChar_ne_nil c)
    rw [hsplit, List.length_append] at enough
    obtain ⟨length, hread⟩ := decodeChar_encodeChar index c (encode cs)
    rw [hsplit, decodeFrom, hread]
    have hrest : decodeFrom fuel (index + length) (encode cs) = .ok cs := ih (by omega) _
    change (do return c :: (← decodeFrom fuel (index + length) (encode cs)) : Except EncodingFault _) = _
    rw [hrest]
    rfl

theorem decodeUtf8_encode (cs : List Char) : decodeUtf8 (encode cs) = .ok cs :=
  decodeFrom_encode (Nat.lt_succ_self _) 0

/-! ## Percent signs -/

theorem hexValue?_upperHexDigit : ∀ n < 16, hexValue? (upperHexDigit n) = some n := by decide

theorem percentDecode_percentByte {b : ℕ} (hb : b < 256) (rest : List Char) :
    percentDecode (percentByte b ++ rest) = b :: percentDecode rest := by
  have hhigh := hexValue?_upperHexDigit (b / 16) (by omega)
  have hlow := hexValue?_upperHexDigit (b % 16) (by omega)
  have hjoin : 16 * (b / 16) + b % 16 = b := Nat.div_add_mod b 16
  simp only [percentByte, List.cons_append, List.nil_append, percentDecode, hhigh, hlow, hjoin]

theorem percentDecode_flatMap_percentByte {bytes : Bytes} (hbytes : ∀ b ∈ bytes, b < 256)
    (rest : List Char) :
    percentDecode (bytes.flatMap percentByte ++ rest) = bytes ++ percentDecode rest := by
  induction bytes with
  | nil => rfl
  | cons b bytes ih =>
    obtain ⟨hb, hbytes⟩ := List.forall_mem_cons.1 hbytes
    rw [List.flatMap_cons, List.append_assoc, percentDecode_percentByte hb, ih hbytes, List.cons_append]

theorem percentDecode_cons {c : Char} (h : c ≠ '%') (rest : List Char) :
    percentDecode (c :: rest) = encodeChar c ++ percentDecode rest := by
  rw [percentDecode.eq_def]
  split
  · rename_i heq
    exact absurd (List.cons.inj heq).1 h
  · rename_i heq
    obtain ⟨rfl, rfl⟩ := List.cons.inj heq
    rfl
  · rename_i heq
    cases heq

/-- What a character becomes in a segment. -/
def segmentChar (c : Char) : List Char :=
  if c.toNat < 0x80 && isUnreserved c then [c] else (encodeChar c).flatMap percentByte

theorem percentSegment_cons (c : Char) (cs : List Char) :
    percentSegment (c :: cs) = segmentChar c ++ percentSegment cs :=
  List.flatMap_cons (f := segmentChar)

theorem encodeChar_lt (c : Char) : ∀ b ∈ encodeChar c, b < 256 := by
  have hbounds := toNat_bounds c
  unfold encodeChar
  dsimp only
  split_ifs <;> simp <;> omega

theorem ne_percent_of_isUnreserved {c : Char} (h : isUnreserved c = true) : c ≠ '%' := by
  rintro rfl
  exact absurd h (by decide)

theorem percentDecode_percentSegment (cs : List Char) : percentDecode (percentSegment cs) = encode cs := by
  induction cs with
  | nil => rfl
  | cons c cs ih =>
    have hencode : encode (c :: cs) = encodeChar c ++ encode cs := List.flatMap_cons
    rw [percentSegment_cons, hencode, ← ih, segmentChar]
    split_ifs with hc
    · exact percentDecode_cons (ne_percent_of_isUnreserved (Bool.and_eq_true_iff.1 hc).2) _
    · exact percentDecode_flatMap_percentByte (encodeChar_lt c) _

/-- A text in which each character is unreserved, or is a percent sign with two digits behind it. -/
inductive IsEscaped : List Char → Prop
  | nil : IsEscaped []
  | unreserved {c : Char} {cs : List Char} (hc : isUnreserved c = true) (rest : IsEscaped cs) :
      IsEscaped (c :: cs)
  | escape {a b : Char} {cs : List Char} (ha : (hexValue? a).isSome) (hb : (hexValue? b).isSome)
      (rest : IsEscaped cs) : IsEscaped ('%' :: a :: b :: cs)

theorem isEscaped_append {cs ds : List Char} (h : IsEscaped cs) (h' : IsEscaped ds) :
    IsEscaped (cs ++ ds) := by
  induction h with
  | nil => exact h'
  | unreserved hc rest ih => exact .unreserved hc ih
  | escape ha hb rest ih => exact .escape ha hb ih

theorem isEscaped_flatMap_percentByte {bytes : Bytes} (hbytes : ∀ b ∈ bytes, b < 256) :
    IsEscaped (bytes.flatMap percentByte) := by
  induction bytes with
  | nil => exact .nil
  | cons b bytes ih =>
    obtain ⟨hb, hbytes⟩ := List.forall_mem_cons.1 hbytes
    refine .escape ?_ ?_ (ih hbytes)
    · rw [hexValue?_upperHexDigit _ (by omega)]
      rfl
    · rw [hexValue?_upperHexDigit _ (by omega)]
      rfl

theorem isEscaped_percentSegment (cs : List Char) : IsEscaped (percentSegment cs) := by
  induction cs with
  | nil => exact .nil
  | cons c cs ih =>
    rw [percentSegment_cons, segmentChar]
    split_ifs with hc
    · exact .unreserved (Bool.and_eq_true_iff.1 hc).2 ih
    · exact isEscaped_append (isEscaped_flatMap_percentByte (encodeChar_lt c)) ih

/-- The characters of segments. -/
def isSegmentChar (c : Char) : Bool := isUnreserved c || c == '%'

theorem isUnreserved_of_hexValue? {c : Char} (h : (hexValue? c).isSome) : isUnreserved c = true := by
  have hle (a b : Char) : a ≤ b ↔ a.toNat ≤ b.toNat := Iff.rfl
  by_cases hdigit : isDigit c = true
  · simp [isUnreserved, hdigit]
  · have hletter : isAsciiLetter c = true := by
      simp only [isAsciiLetter, Bool.or_eq_true, Bool.and_eq_true, decide_eq_true_eq, hle,
        Char.reduceToNat]
      rw [hexValue?, if_neg hdigit] at h
      split_ifs at h with hsmall hlarge
      · simp only [Bool.and_eq_true, decide_eq_true_eq, hle, Char.reduceToNat] at hsmall
        omega
      · simp only [Bool.and_eq_true, decide_eq_true_eq, hle, Char.reduceToNat] at hlarge
        omega
      · cases h
    simp [isUnreserved, hletter]

theorem IsEscaped.forall_isSegmentChar {cs : List Char} (h : IsEscaped cs) :
    ∀ c ∈ cs, isSegmentChar c = true := by
  have hhex {c : Char} (h : (hexValue? c).isSome) : isSegmentChar c = true := by
    simp [isSegmentChar, isUnreserved_of_hexValue? h]
  induction h with
  | nil => exact List.forall_mem_nil _
  | unreserved hc rest ih => exact List.forall_mem_cons.2 ⟨by simp [isSegmentChar, hc], ih⟩
  | escape ha hb rest ih =>
    exact List.forall_mem_cons.2 ⟨rfl, List.forall_mem_cons.2 ⟨hhex ha,
      List.forall_mem_cons.2 ⟨hhex hb, ih⟩⟩⟩

theorem toNat_of_isSegmentChar {c : Char} (h : isSegmentChar c = true) :
    0x20 < c.toNat ∧ c.toNat < 0x7F := by
  have hle (a b : Char) : a ≤ b ↔ a.toNat ≤ b.toNat := Iff.rfl
  simp only [isSegmentChar, isUnreserved, isAsciiLetter, isDigit, Bool.or_eq_true, Bool.and_eq_true,
    decide_eq_true_eq, beq_iff_eq, hle, ← Char.toNat_inj, Char.reduceToNat] at h
  omega

end ClusterPackages.Text
