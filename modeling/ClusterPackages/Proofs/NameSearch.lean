import ClusterPackages.Proofs.Offers

/-! Looking a package up in the merged catalog. A search halves the part of the list in which the
name must be, and never looks at the rest again. That is right because names ascend: where the
search ends, all that comes after is greater than the name (`search_isCut`), so the entry of the
name is there or nowhere. -/

namespace ClusterPackages

namespace MergedCatalog

/-! ## Halving -/

section

variable {α : Type} {goesLeft : α → Bool} {xs : Array α}

/-- Where a search of a part of an array ends: all that comes after goes left, and what stands there
does not, unless it is the first of the part. -/
structure IsCut (goesLeft : α → Bool) (xs : Array α) (base size i : ℕ) : Prop where
  le : base ≤ i
  lt : i < base + size
  stays : base < i → ∀ x, xs[i]? = some x → goesLeft x = false
  goes : ∀ j x, i < j → j < base + size → xs[j]? = some x → goesLeft x = true

/-- After what goes left everything does. -/
def IsMonotone (goesLeft : α → Bool) (xs : Array α) : Prop :=
  ∀ (i j : ℕ) (x y : α), i ≤ j → xs[i]? = some x → xs[j]? = some y → goesLeft x = true →
    goesLeft y = true

/-- Each half that a search leaves out lies on one side of where it ends. -/
theorem search_isCut (ordered : IsMonotone goesLeft xs) (base size : ℕ) (hpos : 0 < size)
    (hsize : base + size ≤ xs.size) : IsCut goesLeft xs base size (search goesLeft xs base size) := by
  fun_induction search goesLeft xs base size with
  | case1 base size hmany half middle base' ih =>
    have hmiddle : middle < xs.size := by omega
    have hread : xs[middle]? = some xs[middle] := Array.getElem?_eq_getElem hmiddle
    by_cases hgoes : goesLeft xs[middle] = true
    · have hbase : base' = base := by simp [base', hread, hgoes]
      rw [hbase] at ih ⊢
      have h := ih (by omega) (by omega)
      refine ⟨h.le, by have := h.lt; omega, h.stays, fun j x hij hj hx => ?_⟩
      by_cases hinside : j < base + (size - half)
      · exact h.goes j x hij hinside hx
      · exact ordered middle j _ x (by omega) hread hx hgoes
    · have hbase : base' = middle := by simp [base', hread, hgoes]
      rw [hbase] at ih ⊢
      have h := ih (by omega) (by omega)
      refine ⟨by have := h.le; omega, by have := h.lt; omega, fun _ x hx => ?_,
        fun j x hij hj hx => h.goes j x hij (by omega) hx⟩
      rcases h.le.eq_or_lt with heq | hlt
      · rw [← heq, hread] at hx
        obtain rfl := Option.some.inj hx
        simpa using hgoes
      · exact h.stays hlt x hx
  | case2 base size hone =>
    exact ⟨le_rfl, by omega, fun h => absurd h (lt_irrefl _), fun j x hij hj => by omega⟩

end

/-! ## Names in order -/

/-- Entries in strictly ascending order of their names. -/
def IsAscending (c : MergedCatalog) : Prop :=
  c.packages.Pairwise fun a b => a.entry.name < b.entry.name

theorem IsAscending.eq_of_name_eq {c : MergedCatalog} (h : c.IsAscending) {m m' : MergedEntry}
    (hm : m ∈ c.packages) (hm' : m' ∈ c.packages) (heq : m.entry.name = m'.entry.name) : m = m' := by
  have hnodup : (c.packages.map (·.entry.name)).Nodup :=
    List.pairwise_map.2 (h.imp fun h => h.ne)
  exact List.inj_on_of_nodup_map hnodup hm hm' heq

theorem IsAscending.isMonotone {c : MergedCatalog} (h : c.IsAscending) (name : String) :
    IsMonotone (fun e : MergedEntry => decide (name < e.entry.name)) c.packages.toArray := by
  intro i j x y hij hx hy hgoes
  rw [List.getElem?_toArray] at hx hy
  rcases hij.eq_or_lt with rfl | hlt
  · rwa [← Option.some.inj (hx.symm.trans hy)]
  · obtain ⟨hi, rfl⟩ := List.getElem?_eq_some_iff.1 hx
    obtain ⟨hj, rfl⟩ := List.getElem?_eq_some_iff.1 hy
    have hnames := List.pairwise_iff_getElem.1 h i j hi hj hlt
    exact decide_eq_true ((of_decide_eq_true hgoes).trans hnames)

/-- In ascending order the search ends at the entry of the name, if there is one. -/
theorem IsAscending.search_eq {c : MergedCatalog} (h : c.IsAscending) {k : ℕ} {m : MergedEntry}
    (hk : c.packages[k]? = some m) :
    search (fun e => decide (m.entry.name < e.entry.name)) c.packages.toArray 0
      c.packages.toArray.size = k := by
  have hlt : k < c.packages.length := (List.getElem?_eq_some_iff.1 hk).1
  have hcut := search_isCut (h.isMonotone m.entry.name) 0 c.packages.toArray.size
    (by simp; omega) (by simp)
  set i := search (fun e => decide (m.entry.name < e.entry.name)) c.packages.toArray 0
    c.packages.toArray.size
  rcases lt_trichotomy i k with hik | hik | hik
  · -- what comes after the end is greater, but the entry is not greater than itself
    have hgoes := hcut.goes k m hik (by simpa using hlt) (by rwa [List.getElem?_toArray])
    exact absurd (of_decide_eq_true hgoes) (lt_irrefl _)
  · exact hik
  · have hi : i < c.packages.length := by simpa using hcut.lt
    have hstays := hcut.stays (by omega) c.packages[i]
      (by rw [List.getElem?_toArray]; exact List.getElem?_eq_getElem hi)
    obtain ⟨_, hm⟩ := List.getElem?_eq_some_iff.1 hk
    have hnames := List.pairwise_iff_getElem.1 h k i hlt hi hik
    rw [hm] at hnames
    exact absurd hnames (of_decide_eq_false hstays)

theorem IsAscending.get?_eq_some_iff {c : MergedCatalog} (h : c.IsAscending) (name : String)
    (m : MergedEntry) : c.get? name = some m ↔ m ∈ c.packages ∧ m.entry.name = name := by
  unfold get?
  dsimp only
  constructor
  · intro hget
    split at hget
    · rename_i e he
      split_ifs at hget with hname
      obtain rfl := Option.some.inj hget
      rw [List.getElem?_toArray] at he
      exact ⟨List.mem_of_getElem? he, hname⟩
    · cases hget
  · rintro ⟨hm, rfl⟩
    obtain ⟨k, hk⟩ := List.mem_iff_getElem?.1 hm
    rw [h.search_eq hk, List.getElem?_toArray, hk]
    exact if_pos rfl

theorem IsAscending.get?_eq_find? {c : MergedCatalog} (h : c.IsAscending) (name : String) :
    c.get? name = c.packages.find? (·.entry.name = name) := by
  cases hfind : c.packages.find? (·.entry.name = name) with
  | some m =>
    have hname : m.entry.name = name := by simpa using List.find?_some hfind
    exact (h.get?_eq_some_iff name m).2 ⟨List.mem_of_find?_eq_some hfind, hname⟩
  | none =>
    refine Option.eq_none_iff_forall_ne_some.2 fun m hm => ?_
    obtain ⟨hmem, hname⟩ := (h.get?_eq_some_iff name m).1 hm
    exact List.find?_eq_none.1 hfind m hmem (decide_eq_true hname)

end MergedCatalog

namespace Aggregate

open Clientset

/-! ## The merged catalog -/

theorem isAscending_merge (answers : Answers Catalog) : (merge answers).value.IsAscending := by
  have h := isKeyed_merged answers
  refine List.pairwise_map.2 (List.Pairwise.imp_of_mem (fun {a b} ha hb hab => ?_) h.sorted)
  rw [h.name_eq a ha, h.name_eq b hb]
  exact hab

/-- The merged catalog names, in strictly ascending order, the packages that the catalogs list, and
looking a name up finds the one entry that has it. -/
theorem merged_names_ascend_and_are_found (env : Surroundings) (s : Clientset)
    (reachable : s.Reachable) (rs : List Repository) (listed : env.source.repositories = .ok rs)
    (distinct : (rs.map Repository.name).Nodup) :
    let IsListed (name : String) : Prop :=
      ∃ r ∈ rs, ∃ x, outcome env (RepoClient.catalog env.web) s r = .ok x ∧
        ∃ e ∈ x.packages, e.name = name
    ∃ result, ((mergedCatalog env).run s).1 = .ok result ∧
      (result.value.packages.map (·.entry.name)).Pairwise (· < ·) ∧
      (∀ name, name ∈ result.value.packages.map (·.entry.name) ↔ IsListed name) ∧
      (∀ name, IsListed name → ∃! m, m ∈ result.value.packages ∧ m.entry.name = name) ∧
      (∀ name m, result.value.get? name = some m ↔
        m ∈ result.value.packages ∧ m.entry.name = name) ∧
      (∀ name, result.value.get? name = none ↔ ¬ IsListed name) ∧
      ∀ name, result.value.get? name = result.value.packages.find? (·.entry.name = name) := by
  intro IsListed
  have hascending := isAscending_merge (catalogsOf env s rs)
  have hnamed (name : String) :
      (∃ m ∈ (merge (catalogsOf env s rs)).value.packages, m.entry.name = name) ↔ IsListed name := by
    rw [exists_mem_merge_iff, offers_catalogsOf_ne_nil_iff]
    exact exists_congr fun r => and_congr_right fun _ => listings_ne_nil_iff
  refine ⟨_, mergedCatalog_run_fst env reachable.isSound listed distinct,
    List.pairwise_map.2 hascending, fun name => ?_, fun name hlisted => ?_,
    hascending.get?_eq_some_iff, fun name => ?_, hascending.get?_eq_find?⟩
  · rw [List.mem_map, hnamed]
  · obtain ⟨m, hm, hname⟩ := (hnamed name).2 hlisted
    exact ⟨m, ⟨hm, hname⟩, fun m' h => hascending.eq_of_name_eq h.1 hm (h.2.trans hname.symm)⟩
  · rw [← hnamed, Option.eq_none_iff_forall_ne_some, not_exists]
    exact forall_congr' fun m => not_congr (hascending.get?_eq_some_iff name m)

/-- Of three repositories the second has no client; the others list one package both, and the names
of all that they list come after each other as their characters do. -/
theorem merged_names_ascend_and_are_found_beyond_ascii :
    let repository (name url : String) : Repository := { metadata := { name }, spec := { url } }
    let a := repository "a" "http://a"
    let b := repository "b" "ftp://b"
    let c := repository "c" "http://c"
    let inventory := ((({} : Inventory).putRepository a).putRepository b).putRepository c
    let text (s : String) : Reply := .answer 200 none (some (Text.encode s.toList))
    let env : Surroundings :=
      { settings := {}, source := inventory.toSource
        web := .ofPages true
          [("http://a/index.yaml", text "packages:\n- name: é\n- name: z\n"),
           ("http://c/index.yaml", text "packages:\n- name: 😀\n- name: é\n- name: p\n")] }
    ∃ result, ((mergedCatalog env).run {}).1 = .ok result ∧
      (result.value.packages.map (·.entry.name)).Pairwise (· < ·) ∧
      (∃ m ∈ result.value.packages, m.entry.name = "é" ∧ result.value.get? "é" = some m) ∧
      (∃ m ∈ result.value.packages, m.entry.name = "😀" ∧ result.value.get? "😀" = some m) ∧
      result.value.get? "q" = none := by
  intro repository a b c inventory text env
  have hrepositories : List.map Prod.snd inventory.repositories = [a, b, c] := by decide +kernel
  obtain ⟨result, hrun, hascending, -, hunique, hget, hnone, -⟩ :=
    merged_names_ascend_and_are_found env {} .new [a, b, c] (congrArg Except.ok hrepositories)
      (by decide)
  have found {name : String} {r : Repository} (hr : r ∈ [a, b, c])
      (h : listings name (outcome env (RepoClient.catalog env.web) {} r) ≠ []) :
      ∃ m ∈ result.value.packages, m.entry.name = name ∧ result.value.get? name = some m := by
    obtain ⟨m, ⟨hm, hname⟩, -⟩ := hunique name ⟨r, hr, listings_ne_nil_iff.1 h⟩
    exact ⟨m, hm, hname, (hget name m).2 ⟨hm, hname⟩⟩
  have lists : listings "é" (outcome env (RepoClient.catalog env.web) {} a) ≠ [] ∧
      listings "😀" (outcome env (RepoClient.catalog env.web) {} c) ≠ [] ∧
      ∀ r ∈ [a, b, c], listings "q" (outcome env (RepoClient.catalog env.web) {} r) = [] := by
    decide +kernel
  obtain ⟨ha, hc, hnobody⟩ := lists
  refine ⟨result, hrun, hascending, found (by simp) ha, found (by simp) hc, (hnone "q").2 ?_⟩
  rintro ⟨r, hr, hlisted⟩
  exact listings_ne_nil_iff.2 hlisted (hnobody r hr)

end Aggregate
end ClusterPackages
