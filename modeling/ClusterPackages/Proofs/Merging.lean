import ClusterPackages.Proofs.Asking

/-! Merging catalogs. The entries taken in stay sorted and under the names of their packages, and a
repository that fails adds nothing to them but its error. -/

namespace ClusterPackages

open Clientset

namespace Aggregate

/-! ## What is kept -/

/-- Each entry is under the name of its package. -/
structure IsKeyed (merged : TextMap MergedEntry) : Prop where
  sorted : merged.IsSorted
  name_eq : ∀ e ∈ merged, e.2.entry.name = e.1

theorem isKeyed_nil : IsKeyed [] := ⟨TextMap.isSorted_nil, by simp⟩

theorem IsKeyed.insert {merged : TextMap MergedEntry} (h : IsKeyed merged) {k : String}
    {m : MergedEntry} (hm : m.entry.name = k) : IsKeyed (merged.insert k m) := by
  refine ⟨TextMap.isSorted_insert h.sorted k m, fun e he => ?_⟩
  rcases TextMap.mem_of_mem_insert he with rfl | he
  · exact hm
  · exact h.name_eq e he

theorem IsKeyed.addEntry {merged : TextMap MergedEntry} (h : IsKeyed merged) (r : Repository)
    (e : CatalogEntry) : IsKeyed (addEntry r merged e) := by
  unfold Aggregate.addEntry
  cases hm : merged.get? e.name with
  | none => exact h.insert rfl
  | some m =>
    refine h.insert ?_
    dsimp only
    split_ifs
    · exact h.name_eq _ (TextMap.mem_of_get?_eq_some hm)
    · rfl

theorem IsKeyed.addAnswer {merged : TextMap MergedEntry} (h : IsKeyed merged)
    (answer : Repository × Except RepoError Catalog) : IsKeyed (addAnswer merged answer) := by
  unfold Aggregate.addAnswer
  cases answer.2 with
  | error e => exact h
  | ok catalog => exact List.foldlRecOn _ _ h fun _ hmerged e _ => hmerged.addEntry answer.1 e

theorem isKeyed_merged (answers : Answers Catalog) : IsKeyed (answers.foldl addAnswer []) :=
  List.foldlRecOn _ _ isKeyed_nil fun _ h answer _ => h.addAnswer answer

/-- An entry of the merged catalog is the one that is kept under its package's name. -/
theorem get?_of_mem_merge {answers : Answers Catalog} {m : MergedEntry}
    (hm : m ∈ (merge answers).value.packages) :
    (answers.foldl addAnswer []).get? m.entry.name = some m := by
  have h := isKeyed_merged answers
  obtain ⟨e, he, rfl⟩ := List.mem_map.1 hm
  rw [TextMap.get?_eq_some_iff h.sorted, h.name_eq e he]
  exact he

/-! ## Repositories that fail -/

theorem foldl_addAnswer_answered (merged : TextMap MergedEntry) (answers : Answers Catalog) :
    answers.foldl addAnswer merged = (answers.filter (·.2.isOk)).foldl addAnswer merged := by
  induction answers generalizing merged with
  | nil => rfl
  | cons answer answers ih =>
    obtain ⟨r, x⟩ := answer
    cases x with
    | error e => exact ih merged
    | ok catalog => exact ih _

/-- Those who fail neither add to what the others offer nor hide it. -/
theorem merge_answered (answers : Answers Catalog) :
    (merge answers).value = (merge (answers.filter (·.2.isOk))).value := by
  unfold merge
  rw [foldl_addAnswer_answered]

/-- Who failed, and how. -/
def failed {α : Type} (answers : Answers α) : List (Repository × RepoError) :=
  answers.filterMap fun (r, answer) => match answer with
    | .ok _ => none
    | .error e => some (r, e)

theorem failures_eq {α : Type} (answers : Answers α) :
    failures answers = (failed answers).map Prod.snd := by
  unfold failures failed
  rw [List.map_filterMap]
  congr 1
  funext answer
  rcases answer with ⟨r, _ | _⟩ <;> rfl

theorem mem_failed {α : Type} {answers : Answers α} {r : Repository} {e : RepoError} :
    (r, e) ∈ failed answers ↔ (r, .error e) ∈ answers := by
  unfold failed
  rw [List.mem_filterMap]
  constructor
  · rintro ⟨⟨r', _ | _⟩, hmem, h⟩
    · obtain ⟨rfl, rfl⟩ := Prod.mk.inj (Option.some.inj h)
      exact hmem
    · cases h
  · exact fun hmem => ⟨_, hmem, rfl⟩

/-- Those who fail stay in the order in which they were asked. -/
theorem failed_sublist {α : Type} (answers : Answers α) :
    ((failed answers).map Prod.fst).Sublist (answers.map Prod.fst) := by
  induction answers with
  | nil => exact .slnil
  | cons answer answers ih =>
    rcases answer with ⟨r, _ | _⟩
    · exact ih.cons_cons r
    · exact ih.cons r

/-- What is reported of those who failed, by how many they are. -/
theorem combine_failed (failing : List (Repository × RepoError)) :
    (failing = [] ∧ RepoError.combine (failing.map Prod.snd) = none) ∨
      (∃ r e, failing = [(r, e)] ∧ RepoError.combine (failing.map Prod.snd) = some e) ∨
      (2 ≤ failing.length ∧
        RepoError.combine (failing.map Prod.snd) = some (.multiple (failing.map Prod.snd))) := by
  rcases failing with _ | ⟨⟨r, e⟩, _ | ⟨f, fs⟩⟩
  · exact .inl ⟨rfl, rfl⟩
  · exact .inr (.inl ⟨r, e, rfl, rfl⟩)
  · exact .inr (.inr ⟨by simp, rfl⟩)

end Aggregate

/-! ## The merged catalog -/

/-- The same surroundings with other repositories in the list. -/
def Surroundings.listing (env : Surroundings) (rs : List Repository) : Surroundings :=
  { env with source := { env.source with repositories := .ok rs } }

namespace Aggregate

theorem mergedCatalog_run (env : Surroundings) (s : Clientset) :
    (mergedCatalog env).run s =
      (((ask env List.reverse (RepoClient.catalog env.web)).run s).1.map merge,
        ((ask env List.reverse (RepoClient.catalog env.web)).run s).2) := rfl

/-- The catalogs in the order in which they are merged. -/
abbrev catalogsOf (env : Surroundings) (s : Clientset) (rs : List Repository) : Answers Catalog :=
  answersOf env List.reverse (RepoClient.catalog env.web) s rs

theorem mergedCatalog_run_fst (env : Surroundings) {s : Clientset} (h : IsSound s)
    {rs : List Repository} (listed : env.source.repositories = .ok rs)
    (distinct : (rs.map Repository.name).Nodup) :
    ((mergedCatalog env).run s).1 = .ok (merge (catalogsOf env s rs)) := by
  rw [mergedCatalog_run,
    ask_run_fst env (ignoresRequests_catalog env.web) h _ List.reverse_perm listed distinct]
  rfl

/-- The answers of some repositories are those among the answers of all. -/
theorem catalogsOf_filter (env : Surroundings) (s : Clientset) {rs : List Repository}
    (distinct : (rs.map Repository.name).Nodup) (p : Repository → Bool) :
    catalogsOf env s (rs.filter p) = (catalogsOf env s rs).filter fun answer => p answer.1 := by
  unfold catalogsOf answersOf
  rw [byName_filter distinct, List.filter_map, List.filter_reverse]
  rfl

/-- A repository that fails neither changes nor hides what the others offer, and no failure is
dropped. -/
theorem mergedCatalog_leaves_out_failing (env : Surroundings) (s : Clientset)
    (reachable : s.Reachable) :
    (∀ e, env.source.repositories = .error e → ((mergedCatalog env).run s).1 = .error e) ∧
    ∀ rs, env.source.repositories = .ok rs → (rs.map Repository.name).Nodup →
      let catalog (r : Repository) := outcome env (RepoClient.catalog env.web) s r
      ∃ result rest failing,
        ((mergedCatalog env).run s).1 = .ok result ∧
        ((mergedCatalog (env.listing (rs.filter fun r => (catalog r).isOk))).run s).1 = .ok rest ∧
        result.value = rest.value ∧
        (∀ r e, (r, e) ∈ failing ↔ r ∈ rs ∧ catalog r = .error e) ∧
        failing.Pairwise (fun a b => b.1.name < a.1.name) ∧
        (failing = [] ∧ result.error = none ∨
          (∃ r e, failing = [(r, e)] ∧ result.error = some e) ∨
          2 ≤ failing.length ∧ result.error = some (.multiple (failing.map Prod.snd))) := by
  refine ⟨fun e unlisted => ?_, fun rs listed distinct => ?_⟩
  · rw [mergedCatalog_run, ask_run, unlisted]
    rfl
  intro catalog
  have hdistinct : ((rs.filter fun r => (catalog r).isOk).map Repository.name).Nodup :=
    distinct.sublist (List.filter_sublist.map _)
  have hrest := mergedCatalog_run_fst (env.listing (rs.filter fun r => (catalog r).isOk))
    reachable.isSound rfl hdistinct
  refine ⟨merge (catalogsOf env s rs), _, failed (catalogsOf env s rs),
    mergedCatalog_run_fst env reachable.isSound listed distinct, hrest, ?_, fun r e => ?_, ?_, ?_⟩
  · have hothers : catalogsOf env s (rs.filter fun r => (catalog r).isOk) =
        (catalogsOf env s rs).filter (·.2.isOk) := by
      rw [catalogsOf_filter env s distinct]
      refine List.filter_congr fun answer hmem => ?_
      rw [← ((mem_answersOf List.reverse_perm).1 hmem).2]
    exact (merge_answered _).trans (congrArg (fun answers => (merge answers).value) hothers.symm)
  · rw [mem_failed, mem_answersOf List.reverse_perm]
  · have hdescending : ((catalogsOf env s rs).map Prod.fst).Pairwise
        fun a b => b.name < a.name := by
      rw [answersOf_fst, List.pairwise_reverse]
      exact byName_strictlyAscending distinct
    exact List.pairwise_map.1 (hdescending.sublist (failed_sublist _))
  · have herror : (merge (catalogsOf env s rs)).error =
        RepoError.combine ((failed (catalogsOf env s rs)).map Prod.snd) := by
      rw [← failures_eq]
      rfl
    rw [herror]
    exact combine_failed _

/-- Of two repositories one has an address that no client can be built for. -/
theorem mergedCatalog_leaves_out_failing_second :
    let repository (name url : String) : Repository := { metadata := { name }, spec := { url } }
    let a := repository "a" "http://a"
    let b := repository "b" "ftp://b"
    let inventory := (({} : Inventory).putRepository a).putRepository b
    let env : Surroundings :=
      { settings := {}, source := inventory.toSource
        web := fun _ => .answer 200 none (some (Text.encode "packages:\n- name: p\n".toList)) }
    ∃ result rest, ((mergedCatalog env).run {}).1 = .ok result ∧
      ((mergedCatalog (env.listing [a])).run {}).1 = .ok rest ∧ result.value = rest.value ∧
      result.error.isSome := by
  intro repository a b inventory env
  have listed : List.map Prod.snd inventory.repositories = [a, b] := by decide +kernel
  have ha : (outcome env (RepoClient.catalog env.web) {} a).isOk = true := by decide +kernel
  have hb : (outcome env (RepoClient.catalog env.web) {} b).isOk = false := by decide +kernel
  obtain ⟨result, rest, failing, hresult, hrest, hvalue, hfailing, -, herror⟩ :=
    (mergedCatalog_leaves_out_failing env {} .new).2 [a, b] (congrArg Except.ok listed)
      (by decide)
  refine ⟨result, rest, hresult, ?_, hvalue, ?_⟩
  · simpa [ha, hb] using hrest
  · cases hcatalog : outcome env (RepoClient.catalog env.web) {} b with
    | ok x =>
      rw [hcatalog] at hb
      cases hb
    | error e =>
      have hmem : (b, e) ∈ failing := (hfailing b e).2 ⟨by simp, hcatalog⟩
      rcases herror with ⟨rfl, -⟩ | ⟨r, e', -, h⟩ | ⟨-, h⟩
      · cases hmem
      · simp [h]
      · simp [h]

end Aggregate
end ClusterPackages
