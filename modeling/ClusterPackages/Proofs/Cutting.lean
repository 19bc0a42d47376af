import ClusterPackages.Text.Basic
import Mathlib.Data.List.TakeWhile
import Mathlib.Tactic.SplitIfs

/-! Cutting texts. A reader takes the longest front in a class of characters; a text that is put together
from such a front and a rest that does not go on with the class is cut where it was joined. Parts
without a separator are what a text is split into that joins them. -/

namespace ClusterPackages.Text

/-- A text that does not go on with characters of a class. -/
def StopsAt (p : Char → Bool) (rest : List Char) : Prop := ∀ c, rest.head? = some c → p c = false

variable {p : Char → Bool} {front rest front' rest' : List Char}

theorem stopsAt_nil : StopsAt p [] := fun _ h => (by cases h)

theorem stopsAt_cons {c : Char} {cs : List Char} (h : p c = false) : StopsAt p (c :: cs) :=
  fun _ hd => Option.some.inj hd ▸ h

theorem stopsAt_append (h : StopsAt p front) (h' : StopsAt p rest) : StopsAt p (front ++ rest) := by
  cases front with
  | nil => exact h'
  | cons c cs => exact h

theorem stopsAt_append_of_ne_nil (h : StopsAt p front) (nonempty : front ≠ []) :
    StopsAt p (front ++ rest) := by
  cases front with
  | nil => exact absurd rfl nonempty
  | cons c cs => exact h

theorem StopsAt.mono {q : Char → Bool} (h : StopsAt p rest) (le : ∀ c, q c = true → p c = true) :
    StopsAt q rest := by
  intro c hc
  by_contra hq
  have hp := le c (by simpa using hq)
  rw [h c hc] at hp
  cases hp

theorem stopsAt_dropWhile (p : Char → Bool) (cs : List Char) : StopsAt p (cs.dropWhile p) := by
  intro c h
  have hnot := List.head?_dropWhile_not p cs
  rw [h] at hnot
  simpa using hnot

theorem takeWhile_cut (inside : ∀ c ∈ front, p c = true) (stops : StopsAt p rest) :
    (front ++ rest).takeWhile p = front := by
  rw [List.takeWhile_append_of_pos inside]
  cases rest with
  | nil => simp
  | cons c cs => simp [stops c rfl]

theorem dropWhile_cut (inside : ∀ c ∈ front, p c = true) (stops : StopsAt p rest) :
    (front ++ rest).dropWhile p = rest := by
  rw [List.dropWhile_append_of_pos inside]
  cases rest with
  | nil => rfl
  | cons c cs => simp [stops c rfl]

theorem takeWhile_append_of_stopsAt (stops : StopsAt p rest) :
    (front ++ rest).takeWhile p = front.takeWhile p := by
  rw [List.takeWhile_append]
  split_ifs with hall
  · have hrest : rest.takeWhile p = [] := by simpa using takeWhile_cut (List.forall_mem_nil _) stops
    rw [hrest, List.append_nil, (List.takeWhile_prefix p).eq_of_length hall]
  · rfl

theorem takeWhile_append_of_not_forall (h : ¬ ∀ c ∈ front, p c = true) :
    (front ++ rest).takeWhile p = front.takeWhile p := by
  rw [List.takeWhile_append, if_neg]
  intro hlength
  exact h (List.takeWhile_eq_self_iff.1 ((List.takeWhile_prefix p).eq_of_length hlength))

theorem dropWhile_append_of_stopsAt (stops : StopsAt p rest) :
    (front ++ rest).dropWhile p = front.dropWhile p ++ rest := by
  rw [List.dropWhile_append]
  split_ifs with hall
  · rw [List.isEmpty_iff.1 hall]
    simpa using dropWhile_cut (List.forall_mem_nil _) stops
  · rfl

theorem drop_length_takeWhile (p : Char → Bool) (cs : List Char) :
    cs.drop (cs.takeWhile p).length = cs.dropWhile p :=
  (congrArg (List.drop _) List.takeWhile_append_dropWhile.symm).trans List.drop_left

theorem notMem_of_forall {d : Char} (inside : ∀ c ∈ front, p c = true) (hd : p d = false) : d ∉ front := by
  intro hmem
  rw [inside d hmem] at hd
  cases hd

/-- A text is cut in one place only. -/
theorem cut_unique (h : front ++ rest = front' ++ rest') (inside : ∀ c ∈ front, p c = true)
    (inside' : ∀ c ∈ front', p c = true) (stops : StopsAt p rest) (stops' : StopsAt p rest') :
    front = front' ∧ rest = rest' := by
  have hfront := takeWhile_cut inside stops
  rw [h, takeWhile_cut inside' stops'] at hfront
  subst hfront
  exact ⟨rfl, List.append_cancel_left h⟩

theorem mem_splitOn {sep : Char} {cs part : List Char} (h : part ∈ splitOn sep cs) :
    ∀ c ∈ part, c ∈ cs ∧ c ≠ sep := by
  induction cs generalizing part with
  | nil =>
    obtain rfl := List.mem_singleton.1 h
    simp
  | cons d cs ih =>
    rw [splitOn] at h
    split_ifs at h with hsep
    · rcases List.mem_cons.1 h with rfl | h
      · simp
      · exact fun c hc => ⟨List.mem_cons_of_mem d (ih h c hc).1, (ih h c hc).2⟩
    · cases hparts : splitOn sep cs with
      | nil => exact absurd hparts (splitOn_ne_nil sep cs)
      | cons first parts =>
        rw [hparts] at h ih
        rcases List.mem_cons.1 h with rfl | h
        · intro c hc
          rcases List.mem_cons.1 hc with rfl | hc
          · exact ⟨List.mem_cons_self, hsep⟩
          · have hfirst := ih List.mem_cons_self c hc
            exact ⟨List.mem_cons_of_mem d hfirst.1, hfirst.2⟩
        · have hpart := ih (List.mem_cons_of_mem first h)
          exact fun c hc => ⟨List.mem_cons_of_mem d (hpart c hc).1, (hpart c hc).2⟩

theorem splitOn_cut (sep : Char) (cs ds : List Char) :
    splitOn sep (cs ++ sep :: ds) = splitOn sep cs ++ splitOn sep ds := by
  induction cs with
  | nil => simp [splitOn]
  | cons c cs ih =>
    rw [List.cons_append, splitOn, splitOn, ih]
    split_ifs with hc
    · rfl
    · cases hparts : splitOn sep cs with
      | nil => exact absurd hparts (splitOn_ne_nil sep cs)
      | cons part parts => rfl

theorem splitOn_of_notMem {sep : Char} {part : List Char} (h : sep ∉ part) :
    splitOn sep part = [part] := by
  induction part with
  | nil => rfl
  | cons c part ih =>
    obtain ⟨hc, hpart⟩ := not_or.1 (mt List.mem_cons.2 h)
    rw [splitOn, if_neg (Ne.symm hc), ih hpart]

theorem splitOn_append {sep : Char} {part cs : List Char} (h : sep ∉ part) :
    splitOn sep (part ++ sep :: cs) = part :: splitOn sep cs := by
  rw [splitOn_cut, splitOn_of_notMem h, List.singleton_append]

/-- A text without separators goes on with the last part. -/
theorem exists_splitOn_append {sep : Char} {more : List Char} (h : sep ∉ more) (cs : List Char) :
    ∃ parts last, splitOn sep cs = parts ++ [last] ∧ splitOn sep (cs ++ more) = parts ++ [last ++ more] := by
  induction cs with
  | nil => exact ⟨[], [], rfl, splitOn_of_notMem h⟩
  | cons c cs ih =>
    obtain ⟨parts, last, hcs, happend⟩ := ih
    rw [List.cons_append, splitOn, splitOn, hcs, happend]
    split_ifs with hc
    · exact ⟨[] :: parts, last, rfl, rfl⟩
    · cases parts with
      | nil => exact ⟨[], c :: last, rfl, rfl⟩
      | cons part parts => exact ⟨(c :: part) :: parts, last, rfl, rfl⟩

theorem join_cons_cons (sep part next : List Char) (parts : List (List Char)) :
    join sep (part :: next :: parts) = part ++ (sep ++ join sep (next :: parts)) := by
  rw [← List.append_assoc]
  rfl

theorem splitOn_join {sep : Char} {parts : List (List Char)} (nonempty : parts ≠ [])
    (h : ∀ part ∈ parts, sep ∉ part) : splitOn sep (join [sep] parts) = parts := by
  induction parts with
  | nil => exact absurd rfl nonempty
  | cons part parts ih =>
    obtain ⟨hpart, hparts⟩ := List.forall_mem_cons.1 h
    cases parts with
    | nil => exact splitOn_of_notMem hpart
    | cons next parts =>
      rw [join_cons_cons, List.singleton_append, splitOn_append hpart,
        ih (List.cons_ne_nil _ _) hparts]

/-! ## Blanks -/

theorem not_isBlank_of_printable {c : Char} (h : 33 ≤ c.toNat ∧ c.toNat ≤ 126) :
    isBlank c = false := by
  simp only [isBlank, Bool.or_eq_false_iff, Bool.and_eq_false_iff, decide_eq_false_iff_not,
    beq_eq_false_iff_ne]
  omega

/-- A text that neither begins nor ends with a blank is what trimming leaves of it between blanks. -/
theorem trim_append {before middle after : List Char} (hbefore : ∀ c ∈ before, isBlank c = true)
    (hafter : ∀ c ∈ after, isBlank c = true) (nonempty : middle ≠ [])
    (begins : StopsAt isBlank middle) (ends : StopsAt isBlank middle.reverse) :
    trim (before ++ (middle ++ after)) = middle := by
  have hstart : StopsAt isBlank (middle ++ after) := by
    cases middle with
    | nil => exact absurd rfl nonempty
    | cons c cs => exact stopsAt_cons (begins c rfl)
  unfold trim trimStart trimEnd
  rw [dropWhile_cut hbefore hstart, List.reverse_append,
    dropWhile_cut (fun c hc => hafter c (List.mem_reverse.1 hc)) ends, List.reverse_reverse]

theorem exists_eq_append_trim (cs : List Char) :
    ∃ before after, cs = before ++ (trim cs ++ after) ∧ (∀ c ∈ before, isBlank c = true) ∧
      ∀ c ∈ after, isBlank c = true := by
  refine ⟨cs.takeWhile isBlank, ((trimStart cs).reverse.takeWhile isBlank).reverse, ?_,
    fun c => List.mem_takeWhile_imp, fun c hc => List.mem_takeWhile_imp (List.mem_reverse.1 hc)⟩
  rw [trim, trimEnd, ← List.reverse_append, List.takeWhile_append_dropWhile, List.reverse_reverse,
    trimStart, List.takeWhile_append_dropWhile]

end ClusterPackages.Text
