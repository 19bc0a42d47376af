import ClusterPackages.Proofs.WebAddress
import Mathlib.Data.List.DropRight

/-! Addresses below a base. Blanks around an address do not count, and slashes are taken off its end before
a document is asked for below it. Neither changes how its scheme and authority are read, so all
addresses below a base are read alike up to where they differ (`parse_below`). -/

namespace ClusterPackages.Url

open Text

/-! ## Blanks -/

def isOuter (c : Char) : Bool := c.toNat ≤ 0x20

def isInner (c : Char) : Bool := c != '\t' && c != '\n' && c != '\r'

theorem trim_eq (cs : List Char) :
    trim cs = ((cs.dropWhile isOuter).rdropWhile isOuter).filter isInner := rfl

/-- What counts of a text that an address begins with. -/
def startOf (cs : List Char) : List Char := (cs.dropWhile isOuter).filter isInner

theorem isInner_of_not_isOuter {c : Char} (h : isOuter c = false) : isInner c = true := by
  simp only [isOuter, decide_eq_false_iff_not] at h
  simp only [isInner, Bool.and_eq_true, bne_iff_ne, ne_eq, ← Char.toNat_inj, Char.reduceToNat]
  omega

theorem startOf_append {base rest : List Char} (plain : ∀ c ∈ rest, isOuter c = false) :
    startOf (base ++ rest) = startOf base ++ rest := by
  have hstops : StopsAt isOuter rest := fun c hc => plain c (List.mem_of_mem_head? hc)
  have hrest : rest.filter isInner = rest :=
    List.filter_eq_self.2 fun c hc => isInner_of_not_isOuter (plain c hc)
  rw [startOf, dropWhile_append_of_stopsAt hstops, List.filter_append, hrest, startOf]

theorem trim_append {base rest : List Char} (plain : ∀ c ∈ rest, isOuter c = false)
    (nonempty : rest ≠ []) : trim (base ++ rest) = startOf base ++ rest := by
  have hstops : StopsAt isOuter rest := fun c hc => plain c (List.mem_of_mem_head? hc)
  have hlast : (base.dropWhile isOuter ++ rest).rdropWhile isOuter = base.dropWhile isOuter ++ rest := by
    refine List.rdropWhile_eq_self_iff.2 fun h => ?_
    rw [List.getLast_append_of_ne_nil _ nonempty, plain _ (List.getLast_mem nonempty)]
    decide
  rw [← startOf_append plain, trim_eq, dropWhile_append_of_stopsAt hstops, hlast,
    ← dropWhile_append_of_stopsAt hstops, startOf]

theorem not_isOuter_slashes (n : ℕ) : ∀ c ∈ List.replicate n '/', isOuter c = false :=
  fun _ hc => List.eq_of_mem_replicate hc ▸ by decide

/-- Nothing is taken off an address that does not end with a blank. -/
theorem trim_eq_startOf {base : List Char} {n : ℕ}
    (last : ∀ d, (base ++ List.replicate n '/').getLast? = some d → isOuter d = false) :
    trim (base ++ List.replicate n '/') = startOf base ++ List.replicate n '/' := by
  cases n with
  | zero =>
    simp only [List.replicate_zero, List.append_nil] at last ⊢
    rcases List.eq_nil_or_concat base with rfl | ⟨before, d, rfl⟩
    · rfl
    · have hd : ∀ c ∈ [d], isOuter c = false := by
        simpa using last d (by simp)
      rw [List.concat_eq_append, trim_append hd (List.cons_ne_nil _ _), startOf_append hd]
  | succ n => exact trim_append (not_isOuter_slashes (n + 1)) (List.cons_ne_nil _ _)

/-- Two texts that differ in what does not count at the end of an address: the first has slashes more or
blanks less. -/
inductive EndsAlike : List Char → List Char → Prop
  | slashes (cs : List Char) (n : ℕ) : EndsAlike (cs ++ List.replicate n '/') cs
  | blanks (cs : List Char) {more : List Char} (outer : ∀ c ∈ more, isOuter c = true) :
      EndsAlike cs (cs ++ more)

theorem trim_endsAlike (base : List Char) (n : ℕ) :
    EndsAlike (trim (base ++ List.replicate n '/')) (startOf base) := by
  cases n with
  | zero =>
    have hsplit : startOf base =
        trim base ++ ((base.dropWhile isOuter).rtakeWhile isOuter).filter isInner := by
      rw [trim_eq, ← List.filter_append, List.rdropWhile_append_rtakeWhile, startOf]
    rw [List.replicate_zero, List.append_nil, hsplit]
    exact .blanks _ fun c hc => List.mem_rtakeWhile_imp (List.mem_of_mem_filter hc)
  | succ n =>
    rw [trim_append (not_isOuter_slashes (n + 1)) (List.cons_ne_nil _ _)]
    exact .slashes _ _

/-! ## Below a base -/

theorem not_inScheme_of_isOuter {c : Char} (h : isOuter c = true) : inScheme c = false := by
  have hle (a b : Char) : a ≤ b ↔ a.toNat ≤ b.toNat := Iff.rfl
  simp only [isOuter, decide_eq_true_eq] at h
  simp only [inScheme, isSchemeChar, isAsciiLetter, isDigit, Bool.or_eq_false_iff, Bool.and_eq_false_iff,
    decide_eq_false_iff_not, beq_eq_false_iff_ne, ne_eq, hle, ← Char.toNat_inj, Char.reduceToNat]
  omega

theorem hierarchy_append {cs ys : List Char} (nonempty : hierarchy cs ≠ [])
    (stops : StopsAt inScheme ys) :
    hierarchy (cs ++ ys) = hierarchy cs ++ ys := by
  unfold hierarchy at nonempty ⊢
  rw [scheme?_append stops]
  cases hscheme : scheme? cs with
  | none =>
    rw [hscheme] at nonempty
    exact absurd rfl nonempty
  | some p =>
    simp only [hscheme, Option.map_some, Option.getD_some] at nonempty ⊢
    rw [List.dropWhile_append, if_neg (by simpa using nonempty)]

/-- What an authority does not go on with belongs to the tail. -/
theorem authorityText_append {cs ys : List Char} (nonempty : hierarchy cs ≠ [])
    (stops : StopsAt inScheme ys) (ends : StopsAt isInside ys) :
    authorityText (cs ++ ys) = authorityText cs := by
  rw [authorityText, hierarchy_append nonempty stops, takeWhile_append_of_stopsAt ends, authorityText]

theorem tailText_append {cs ys : List Char} (nonempty : hierarchy cs ≠ [])
    (stops : StopsAt inScheme ys) (ends : StopsAt isInside ys) :
    tailText (cs ++ ys) = tailText cs ++ ys := by
  rw [tailText, hierarchy_append nonempty stops, dropWhile_append_of_stopsAt ends, tailText]

/-- An address that is read has something behind its scheme. -/
theorem hierarchy_ne_nil_of_parse {text : String} {u : Url} (h : parse text = .ok u)
    (hweb : u.isWeb = true) : hierarchy (trim text.toList) ≠ [] := by
  intro hnil
  obtain ⟨rest, hscheme⟩ := scheme?_of_parse h
  have hweb : u.scheme = http ∨ u.scheme = https := by simpa [isWeb] using hweb
  rw [parse_eq hscheme hweb, authorityText, hnil] at h
  obtain ⟨v, hv, -⟩ := Run.except_map_eq_ok_iff.1 h
  have hempty : afterSlashes u.scheme [] = .error .emptyHost := by
    rcases hweb with h | h <;> rw [h] <;> rfl
  rw [List.takeWhile_nil, hempty] at hv
  cases hv

theorem inScheme_slashes (n : ℕ) : StopsAt inScheme (List.replicate n '/') :=
  fun _ hc => List.eq_of_mem_replicate (List.mem_of_mem_head? hc) ▸ by decide

theorem isInside_slashes (n : ℕ) : StopsAt isInside (List.replicate n '/') :=
  fun _ hc => List.eq_of_mem_replicate (List.mem_of_mem_head? hc) ▸ by decide

theorem hierarchy_slashes {cs : List Char} {n : ℕ} (h : hierarchy (cs ++ List.replicate n '/') ≠ []) :
    hierarchy cs ≠ [] := by
  intro hnil
  refine h ?_
  unfold hierarchy at hnil ⊢
  rw [scheme?_append (inScheme_slashes n)]
  cases hscheme : scheme? cs with
  | none => rfl
  | some p =>
    simp only [hscheme, Option.map_some, Option.getD_some] at hnil ⊢
    rw [List.dropWhile_append, if_pos (by simp [hnil]), List.dropWhile_eq_nil_iff]
    exact fun c hc => List.eq_of_mem_replicate hc ▸ by decide

theorem inScheme_blanks {more : List Char} (outer : ∀ c ∈ more, isOuter c = true) :
    StopsAt inScheme more := fun c hc => not_inScheme_of_isOuter (outer c (List.mem_of_mem_head? hc))

theorem EndsAlike.hierarchy_ne_nil {cs ds : List Char} (h : EndsAlike cs ds)
    (nonempty : hierarchy cs ≠ []) : hierarchy ds ≠ [] := by
  cases h with
  | slashes ds n => exact hierarchy_slashes nonempty
  | blanks cs outer =>
    rw [hierarchy_append nonempty (inScheme_blanks outer)]
    exact List.append_ne_nil_of_left_ne_nil nonempty _

theorem EndsAlike.scheme {cs ds scheme rest : List Char} (h : EndsAlike cs ds)
    (hscheme : scheme? cs = some (scheme, rest)) : ∃ rest', scheme? ds = some (scheme, rest') := by
  cases h with
  | slashes ds n =>
    rw [scheme?_append (inScheme_slashes n)] at hscheme
    obtain ⟨p, hp, heq⟩ := Option.map_eq_some_iff.1 hscheme
    obtain ⟨rfl, -⟩ := Prod.mk.inj heq
    exact ⟨p.2, hp⟩
  | blanks cs outer =>
    rw [scheme?_append (inScheme_blanks outer), hscheme]
    exact ⟨_, rfl⟩

theorem EndsAlike.tailText {cs ds : List Char} (h : EndsAlike cs ds) (nonempty : hierarchy cs ≠ []) :
    EndsAlike (tailText cs) (tailText ds) := by
  cases h with
  | slashes ds n =>
    rw [tailText_append (hierarchy_slashes nonempty) (inScheme_slashes n) (isInside_slashes n)]
    exact .slashes _ n
  | @blanks _ more outer =>
    have hinside : more.dropWhile isInside = [] :=
      List.dropWhile_eq_nil_iff.2 fun c hc => isInside_of (by decide) (outer c hc)
    unfold Url.tailText
    rw [hierarchy_append nonempty (inScheme_blanks outer), List.dropWhile_append]
    split_ifs with hnil
    · rw [List.isEmpty_iff.1 hnil, hinside]
      exact .slashes [] 0
    · exact .blanks _ outer

section

variable {base : List Char} {n : ℕ} {url : String} {u : Url}
  (hurl : url.toList = base ++ List.replicate n '/') (h : parse url = .ok u) (hweb : u.isWeb = true)

include hurl

theorem endsAlike_base : EndsAlike (trim url.toList) (startOf base) := hurl ▸ trim_endsAlike base n

include h

theorem scheme?_base : ∃ rest, scheme? (startOf base) = some (u.scheme, rest) := by
  obtain ⟨rest, hscheme⟩ := scheme?_of_parse h
  exact (endsAlike_base hurl).scheme hscheme

include hweb

theorem hierarchy_base : hierarchy (startOf base) ≠ [] :=
  (endsAlike_base hurl).hierarchy_ne_nil (hierarchy_ne_nil_of_parse h hweb)

theorem tailText_endsAlike : EndsAlike (tailText (trim url.toList)) (tailText (startOf base)) :=
  (endsAlike_base hurl).tailText (hierarchy_ne_nil_of_parse h hweb)

/-- Addresses below a base are read alike up to where they differ. -/
theorem parse_below {more : List Char} {text : String} (plain : ∀ c ∈ more, isOuter c = false)
    (htext : text.toList = base ++ '/' :: more) :
    tailText (trim text.toList) = tailText (startOf base) ++ '/' :: more ∧
      parse text = (afterSlashes u.scheme (authorityText (startOf base))).map
        (·.withTail (tailText (startOf base) ++ '/' :: more)) := by
  have hbase := hierarchy_base hurl h hweb
  obtain ⟨rest, hscheme⟩ := scheme?_base hurl h
  have hslash : StopsAt isInside ('/' :: more) := stopsAt_cons (by decide)
  have hstart : StopsAt inScheme ('/' :: more) := stopsAt_cons (by decide)
  have htrim : trim text.toList = startOf base ++ '/' :: more := by
    rw [htext]
    exact trim_append (List.forall_mem_cons.2 ⟨by decide, plain⟩) (List.cons_ne_nil _ _)
  have hread : scheme? (trim text.toList) = some (u.scheme, rest ++ '/' :: more) := by
    rw [htrim, scheme?_append hstart, hscheme]
    rfl
  rw [parse_eq hread (by simpa [isWeb] using hweb), htrim, authorityText_append hbase hstart hslash,
    tailText_append hbase hstart hslash]
  exact ⟨rfl, rfl⟩

/-- So is the base itself, unless it ends with a blank, which does not count there. -/
theorem parse_base (last : ∀ d, url.toList.getLast? = some d → isOuter d = false) :
    ∃ v, afterSlashes u.scheme (authorityText (startOf base)) = .ok v ∧
      u = v.withTail (tailText (startOf base) ++ List.replicate n '/') := by
  have hbase := hierarchy_base hurl h hweb
  obtain ⟨rest, hscheme⟩ := scheme?_of_parse h
  rw [hurl] at last
  have hparse := parse_eq hscheme (by simpa [isWeb] using hweb)
  rw [h, hurl, trim_eq_startOf last, authorityText_append hbase (inScheme_slashes n) (isInside_slashes n),
    tailText_append hbase (inScheme_slashes n) (isInside_slashes n)] at hparse
  obtain ⟨v, hv, heq⟩ := Run.except_map_eq_ok_iff.1 hparse.symm
  exact ⟨v, hv, heq.symm⟩

/-- An address is still read with slashes at its end, unless blanks stood there that count then. -/
theorem parse_slashes {text : String} {m : ℕ}
    (last : ∀ d, url.toList.getLast? = some d → isOuter d = false)
    (htext : text.toList = url.toList ++ List.replicate m '/') :
    ∃ u', parse text = .ok u' ∧ u'.isWeb = true := by
  obtain ⟨v, hv, rfl⟩ := parse_base hurl h hweb last
  cases m with
  | zero =>
    rw [List.replicate_zero, List.append_nil, String.toList_inj] at htext
    exact ⟨_, htext ▸ h, hweb⟩
  | succ m =>
    rw [hurl, List.append_assoc, ← List.replicate_add, ← Nat.add_assoc, List.replicate_succ] at htext
    obtain ⟨-, hparse⟩ := parse_below hurl h hweb (not_isOuter_slashes _) htext
    rw [hv] at hparse
    exact ⟨_, hparse, by rwa [withTail_isWeb] at hweb ⊢⟩

end

end ClusterPackages.Url
