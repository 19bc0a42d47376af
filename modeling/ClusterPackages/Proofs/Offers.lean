import ClusterPackages.Proofs.Merging
import Mathlib.Data.List.Induction

/-! What merged entries are made of. The entry of a package is what comes of its offers, taken one
after the other, so it can be told without the map that they are gathered in. Each offer puts its
repository before the others: repositories come in ascending order, each as often as its catalog
lists the package. -/

namespace ClusterPackages.Aggregate

open Clientset

/-! ## Offers -/

/-- A catalog entry and the repository whose catalog shows it. -/
abbrev Offer := Repository × CatalogEntry

/-- What an answer shows of a package. -/
def listings (name : String) (answer : Except RepoError Catalog) : List CatalogEntry :=
  match answer with
  | .ok catalog => catalog.packages.filter (·.name = name)
  | .error _ => []

/-- The offers of a package, in the order of the answers. -/
def offers (name : String) (answers : Answers Catalog) : List Offer :=
  answers.flatMap fun answer => (listings name answer.2).map (answer.1, ·)

/-- A merged entry after one more offer. -/
def joined (kept : Option MergedEntry) (o : Offer) : MergedEntry :=
  match kept with
  | none => { entry := o.2, repos := [o.1.name] }
  | some m =>
    let shown := if o.1.isDefault then m.entry else o.2
    let latest := maxVersion m.entry.latestVersion o.2.latestVersion
    { entry := { shown with latestVersion := latest }, repos := o.1.name :: m.repos }

def addOffer (kept : Option MergedEntry) (o : Offer) : Option MergedEntry := some (joined kept o)

/-- What comes of the offers of one package. -/
def mergedOf (os : List Offer) : Option MergedEntry := os.foldl addOffer none

theorem mem_listings {name : String} {answer : Except RepoError Catalog} {e : CatalogEntry} :
    e ∈ listings name answer ↔ ∃ catalog, answer = .ok catalog ∧ e ∈ catalog.packages ∧ e.name = name := by
  cases answer <;> simp [listings]

theorem listings_ne_nil_iff {name : String} {answer : Except RepoError Catalog} :
    listings name answer ≠ [] ↔
      ∃ catalog, answer = .ok catalog ∧ ∃ e ∈ catalog.packages, e.name = name := by
  constructor
  · intro h
    obtain ⟨e, he⟩ := List.exists_mem_of_ne_nil _ h
    obtain ⟨catalog, hcatalog, hmem, hname⟩ := mem_listings.1 he
    exact ⟨catalog, hcatalog, e, hmem, hname⟩
  · rintro ⟨catalog, hcatalog, e, hmem, hname⟩
    exact List.ne_nil_of_mem (mem_listings.2 ⟨catalog, hcatalog, hmem, hname⟩)

theorem mem_offers {name : String} {answers : Answers Catalog} {o : Offer} :
    o ∈ offers name answers ↔ ∃ answer, (o.1, answer) ∈ answers ∧ o.2 ∈ listings name answer := by
  obtain ⟨r, e⟩ := o
  simp [offers]

theorem mergedOf_concat (os : List Offer) (o : Offer) :
    mergedOf (os ++ [o]) = some (joined (mergedOf os) o) := by
  simp [mergedOf, addOffer]

theorem mergedOf_eq_none_iff {os : List Offer} : mergedOf os = none ↔ os = [] := by
  induction os using List.reverseRecOn with
  | nil => simp [mergedOf]
  | append_singleton os o ih => simp [mergedOf_concat]

/-! ## The map that they are gathered in -/

theorem addEntry_eq (r : Repository) (merged : TextMap MergedEntry) (e : CatalogEntry) :
    addEntry r merged e = merged.insert e.name (joined (merged.get? e.name) (r, e)) := by
  unfold addEntry joined
  cases merged.get? e.name <;> rfl

theorem get?_addEntries (name : String) (r : Repository) (merged : TextMap MergedEntry)
    (es : List CatalogEntry) :
    (es.foldl (addEntry r) merged).get? name =
      ((es.filter (·.name = name)).map (r, ·)).foldl addOffer (merged.get? name) := by
  induction es generalizing merged with
  | nil => rfl
  | cons e es ih =>
    rw [List.foldl_cons, ih, addEntry_eq, TextMap.get?_insert]
    by_cases hname : e.name = name
    · simp [hname, addOffer]
    · simp [hname, Ne.symm hname]

theorem get?_addAnswers (name : String) (merged : TextMap MergedEntry)
    (answers : Answers Catalog) :
    (answers.foldl addAnswer merged).get? name =
      (offers name answers).foldl addOffer (merged.get? name) := by
  induction answers generalizing merged with
  | nil => rfl
  | cons answer answers ih =>
    have hhead : (addAnswer merged answer).get? name =
        ((listings name answer.2).map (answer.1, ·)).foldl addOffer (merged.get? name) := by
      unfold addAnswer listings
      cases answer.2 with
      | error e => rfl
      | ok catalog => exact get?_addEntries name answer.1 merged catalog.packages
    have hoffers : offers name (answer :: answers) =
        (listings name answer.2).map (answer.1, ·) ++ offers name answers := rfl
    rw [List.foldl_cons, ih, hhead, hoffers, List.foldl_append]

theorem get?_merged (name : String) (answers : Answers Catalog) :
    (answers.foldl addAnswer []).get? name = mergedOf (offers name answers) :=
  get?_addAnswers name [] answers

/-- The merged entries are what comes of the offers. -/
theorem mem_merge_iff {answers : Answers Catalog} {m : MergedEntry} :
    m ∈ (merge answers).value.packages ↔ mergedOf (offers m.entry.name answers) = some m := by
  rw [← get?_merged]
  constructor
  · exact get?_of_mem_merge
  · intro h
    exact List.mem_map.2 ⟨_, TextMap.mem_of_get?_eq_some h, rfl⟩

/-- A package has a merged entry exactly if somebody offers it. -/
theorem exists_mem_merge_iff {answers : Answers Catalog} {name : String} :
    (∃ m ∈ (merge answers).value.packages, m.entry.name = name) ↔ offers name answers ≠ [] := by
  rw [ne_eq, ← mergedOf_eq_none_iff, ← get?_merged, ← ne_eq, Option.ne_none_iff_exists']
  constructor
  · rintro ⟨m, hm, rfl⟩
    exact ⟨m, get?_of_mem_merge hm⟩
  · rintro ⟨m, hm⟩
    have hmem := TextMap.mem_of_get?_eq_some hm
    exact ⟨m, List.mem_map.2 ⟨_, hmem, rfl⟩, (isKeyed_merged answers).name_eq _ hmem⟩

/-! ## Repositories -/

/-- Each offer puts its repository before the others. -/
theorem repos_mergedOf {os : List Offer} {m : MergedEntry} (h : mergedOf os = some m) :
    m.repos = (os.map (·.1.name)).reverse := by
  induction os using List.reverseRecOn generalizing m with
  | nil => cases h
  | append_singleton os o ih =>
    rw [mergedOf_concat] at h
    obtain rfl := Option.some.inj h
    cases hos : mergedOf os with
    | none => simp [joined, mergedOf_eq_none_iff.1 hos]
    | some m => simp [joined, ih hos]

/-- Answers in descending order of names give offers in descending order of names. -/
theorem offers_descending {answers : Answers Catalog}
    (h : answers.Pairwise fun a b => b.1.name < a.1.name) (name : String) :
    (offers name answers).Pairwise fun a b => b.1.name ≤ a.1.name := by
  refine List.pairwise_flatMap.2 ⟨fun answer _ => ?_, h.imp fun {a b} hab => ?_⟩
  · exact List.pairwise_map.2 (List.pairwise_of_forall fun _ _ => le_rfl)
  · intro o ho o' ho'
    obtain ⟨e, -, rfl⟩ := List.mem_map.1 ho
    obtain ⟨e', -, rfl⟩ := List.mem_map.1 ho'
    exact hab.le

/-- A repository makes as many offers of a package as its catalog has entries for it. -/
theorem count_offers {answers : Answers Catalog} (distinct : (answers.map (·.1.name)).Nodup)
    {r : Repository} {answer : Except RepoError Catalog} (h : (r, answer) ∈ answers) (name : String) :
    ((offers name answers).map (·.1.name)).count r.name = (listings name answer).length := by
  induction answers with
  | nil => cases h
  | cons a answers ih =>
    obtain ⟨ha, hanswers⟩ := List.nodup_cons.1 distinct
    have hsplit : (offers name (a :: answers)).map (·.1.name) =
        List.replicate (listings name a.2).length a.1.name ++ (offers name answers).map (·.1.name) := by
      simp [offers, Function.comp_def]
    rw [hsplit, List.count_append, List.count_replicate]
    rcases List.mem_cons.1 h with rfl | h
    · have hrest : r.name ∉ (offers name answers).map (·.1.name) := by
        intro hmem
        obtain ⟨o, ho, hname⟩ := List.mem_map.1 hmem
        obtain ⟨x, hx, -⟩ := mem_offers.1 ho
        exact ha (List.mem_map.2 ⟨_, hx, hname⟩)
      simp [List.count_eq_zero_of_not_mem hrest]
    · have hne : a.1.name ≠ r.name := fun heq => ha (List.mem_map.2 ⟨_, h, heq.symm⟩)
      simp [hne, ih hanswers h]

/-! ## In the merged catalog -/

section

variable {env : Surroundings} {s : Clientset} {rs : List Repository}

theorem mem_offers_catalogsOf {name : String} {o : Offer} :
    o ∈ offers name (catalogsOf env s rs) ↔
      o.1 ∈ rs ∧ o.2 ∈ listings name (outcome env (RepoClient.catalog env.web) s o.1) := by
  rw [mem_offers]
  constructor
  · rintro ⟨answer, hanswer, he⟩
    obtain ⟨hr, rfl⟩ := (mem_answersOf List.reverse_perm).1 hanswer
    exact ⟨hr, he⟩
  · rintro ⟨hr, he⟩
    exact ⟨_, (mem_answersOf List.reverse_perm).2 ⟨hr, rfl⟩, he⟩

theorem offers_catalogsOf_ne_nil_iff {name : String} :
    offers name (catalogsOf env s rs) ≠ [] ↔
      ∃ r ∈ rs, listings name (outcome env (RepoClient.catalog env.web) s r) ≠ [] := by
  constructor
  · intro h
    obtain ⟨o, ho⟩ := List.exists_mem_of_ne_nil _ h
    obtain ⟨hr, he⟩ := mem_offers_catalogsOf.1 ho
    exact ⟨o.1, hr, List.ne_nil_of_mem he⟩
  · rintro ⟨r, hr, h⟩
    obtain ⟨e, he⟩ := List.exists_mem_of_ne_nil _ h
    have ho : (r, e) ∈ offers name (catalogsOf env s rs) := mem_offers_catalogsOf.2 ⟨hr, he⟩
    exact List.ne_nil_of_mem ho

theorem mem_repos_iff {m : MergedEntry}
    (hm : m ∈ (merge (catalogsOf env s rs)).value.packages) {name : String} :
    name ∈ m.repos ↔ ∃ r ∈ rs, r.name = name ∧
      listings m.entry.name (outcome env (RepoClient.catalog env.web) s r) ≠ [] := by
  rw [repos_mergedOf (mem_merge_iff.1 hm), List.mem_reverse, List.mem_map]
  constructor
  · rintro ⟨o, ho, rfl⟩
    obtain ⟨hr, he⟩ := mem_offers_catalogsOf.1 ho
    exact ⟨o.1, hr, rfl, List.ne_nil_of_mem he⟩
  · rintro ⟨r, hr, rfl, hlisted⟩
    obtain ⟨e, he⟩ := List.exists_mem_of_ne_nil _ hlisted
    exact ⟨(r, e), mem_offers_catalogsOf.2 ⟨hr, he⟩, rfl⟩

variable (distinct : (rs.map Repository.name).Nodup)
include distinct

theorem catalogsOf_descending : (catalogsOf env s rs).Pairwise fun a b => b.1.name < a.1.name := by
  have h : ((catalogsOf env s rs).map Prod.fst).Pairwise fun a b => b.name < a.name := by
    rw [answersOf_fst, List.pairwise_reverse]
    exact byName_strictlyAscending distinct
  exact List.pairwise_map.1 h

theorem repos_ascending {m : MergedEntry} (hm : m ∈ (merge (catalogsOf env s rs)).value.packages) :
    m.repos.Pairwise (· ≤ ·) := by
  rw [repos_mergedOf (mem_merge_iff.1 hm), List.pairwise_reverse]
  exact List.pairwise_map.2 (offers_descending (catalogsOf_descending distinct) _)

theorem count_repos {m : MergedEntry} (hm : m ∈ (merge (catalogsOf env s rs)).value.packages)
    {r : Repository} (hr : r ∈ rs) :
    m.repos.count r.name =
      (listings m.entry.name (outcome env (RepoClient.catalog env.web) s r)).length := by
  have hnames : ((catalogsOf env s rs).map (·.1.name)).Nodup :=
    List.pairwise_map.2 ((catalogsOf_descending distinct).imp fun h => h.ne')
  have hmem : (r, outcome env (RepoClient.catalog env.web) s r) ∈ catalogsOf env s rs :=
    (mem_answersOf List.reverse_perm).2 ⟨hr, rfl⟩
  rw [repos_mergedOf (mem_merge_iff.1 hm), List.count_reverse, count_offers hnames hmem]

end

/-- The repositories of a merged entry are those that offer the package, in ascending order, each as
often as its catalog lists the package. So each is named once exactly if no catalog lists the
package twice. -/
theorem repos_ascend_as_often_as_listed (env : Surroundings) (s : Clientset)
    (reachable : s.Reachable) (rs : List Repository) (listed : env.source.repositories = .ok rs)
    (distinct : (rs.map Repository.name).Nodup) :
    let catalog (r : Repository) := outcome env (RepoClient.catalog env.web) s r
    ∃ result, ((mergedCatalog env).run s).1 = .ok result ∧
      (∀ name, (∃ m ∈ result.value.packages, m.entry.name = name) ↔
        ∃ r ∈ rs, ∃ x, catalog r = .ok x ∧ ∃ e ∈ x.packages, e.name = name) ∧
      ∀ m ∈ result.value.packages,
        m.repos.Pairwise (· ≤ ·) ∧
        (∀ name, name ∈ m.repos ↔ ∃ r ∈ rs, r.name = name ∧
          ∃ x, catalog r = .ok x ∧ ∃ e ∈ x.packages, e.name = m.entry.name) ∧
        (∀ r ∈ rs, m.repos.count r.name = (listings m.entry.name (catalog r)).length) ∧
        (m.repos.Pairwise (· < ·) ↔ ∀ r ∈ rs, (listings m.entry.name (catalog r)).length ≤ 1) := by
  intro catalog
  refine ⟨_, mergedCatalog_run_fst env reachable.isSound listed distinct, fun name => ?_,
    fun m hm => ?_⟩
  · simp only [exists_mem_merge_iff, offers_catalogsOf_ne_nil_iff, listings_ne_nil_iff]
    rfl
  · have hascending := repos_ascending distinct hm
    refine ⟨hascending, fun name => ?_, fun r hr => count_repos distinct hm hr, ?_⟩
    · simp only [mem_repos_iff hm, listings_ne_nil_iff]
      rfl
    constructor
    · intro hstrict r hr
      have hnodup : m.repos.Nodup := hstrict.imp fun h => h.ne
      rw [← count_repos distinct hm hr]
      exact List.nodup_iff_count_le_one.1 hnodup r.name
    · intro hone
      have hnodup : m.repos.Nodup := by
        refine List.nodup_iff_count_le_one.2 fun name => ?_
        by_cases hname : name ∈ m.repos
        · obtain ⟨r, hr, rfl, -⟩ := (mem_repos_iff hm).1 hname
          rw [count_repos distinct hm hr]
          exact hone r hr
        · rw [List.count_eq_zero_of_not_mem hname]
          exact Nat.zero_le 1
      exact (hascending.and hnodup).imp fun h => lt_of_le_of_ne h.1 h.2

/-- Of two repositories the first lists one package twice and another one once. -/
theorem repos_ascend_as_often_as_listed_twice :
    let repository (name : String) : Repository :=
      { metadata := { name }, spec := { url := "http://" ++ name } }
    let a := repository "a"
    let b := repository "b"
    let inventory := (({} : Inventory).putRepository a).putRepository b
    let text (s : String) : Reply := .answer 200 none (some (Text.encode s.toList))
    let env : Surroundings :=
      { settings := {}, source := inventory.toSource
        web := .ofPages true
          [("http://a/index.yaml", text "packages:\n- name: p\n- name: q\n- name: p\n"),
           ("http://b/index.yaml", text "packages:\n- name: p\n- name: q\n")] }
    ∃ result, ((mergedCatalog env).run {}).1 = .ok result ∧
      (∃ m ∈ result.value.packages, m.entry.name = "p" ∧ m.repos.count "a" = 2 ∧
        m.repos.count "b" = 1 ∧ ¬ m.repos.Pairwise (· < ·)) ∧
      ∃ m ∈ result.value.packages, m.entry.name = "q" ∧ m.repos.Pairwise (· < ·) := by
  intro repository a b inventory text env
  have listed : List.map Prod.snd inventory.repositories = [a, b] := by decide +kernel
  have lengths :
      (listings "p" (outcome env (RepoClient.catalog env.web) {} a)).length = 2 ∧
      (listings "p" (outcome env (RepoClient.catalog env.web) {} b)).length = 1 ∧
      (listings "q" (outcome env (RepoClient.catalog env.web) {} a)).length = 1 ∧
      (listings "q" (outcome env (RepoClient.catalog env.web) {} b)).length = 1 := by
    decide +kernel
  obtain ⟨hpa, hpb, hqa, hqb⟩ := lengths
  obtain ⟨result, hrun, hentries, hrepos⟩ := repos_ascend_as_often_as_listed env {} .new [a, b]
    (congrArg Except.ok listed) (by decide)
  have entry {name : String}
      (h : listings name (outcome env (RepoClient.catalog env.web) {} b) ≠ []) :
      ∃ m ∈ result.value.packages, m.entry.name = name := by
    obtain ⟨e, he⟩ := List.exists_mem_of_ne_nil _ h
    obtain ⟨x, hx, hmem, rfl⟩ := mem_listings.1 he
    exact (hentries e.name).2 ⟨b, by simp, x, hx, e, hmem, rfl⟩
  refine ⟨result, hrun, ?_, ?_⟩
  · obtain ⟨m, hm, hname⟩ := entry (List.ne_nil_of_length_pos (hpb ▸ Nat.one_pos))
    obtain ⟨-, -, hcount, hstrict⟩ := hrepos m hm
    rw [hname] at hcount hstrict
    have ha : m.repos.count "a" = 2 := (hcount a (by simp)).trans hpa
    refine ⟨m, hm, hname, ha, (hcount b (by simp)).trans hpb, fun h => ?_⟩
    have hone := hstrict.1 h a (by simp)
    rw [hpa] at hone
    omega
  · obtain ⟨m, hm, hname⟩ := entry (List.ne_nil_of_length_pos (hqb ▸ Nat.one_pos))
    obtain ⟨-, -, -, hstrict⟩ := hrepos m hm
    rw [hname] at hstrict
    refine ⟨m, hm, hname, hstrict.2 fun r hr => ?_⟩
    rcases List.mem_pair.1 hr with rfl | rfl
    · exact hqa.le
    · exact hqb.le

/-- A repository whose catalog lists a package twice is named twice. -/
theorem repos_repeat_name :
    let a : Repository := { metadata := { name := "a" }, spec := { url := "http://a" } }
    let env : Surroundings :=
      { settings := {}, source := (({} : Inventory).putRepository a).toSource
        web := .ofPages true
          [("http://a/index.yaml",
            .answer 200 none (some (Text.encode "packages:\n- name: p\n- name: p\n".toList)))] }
    ∃ result, ((mergedCatalog env).run {}).1 = .ok result ∧ ∃ m ∈ result.value.packages,
      m.repos = ["a", "a"] ∧ ¬ m.repos.Pairwise (· < ·) := by
  intro a env
  have sorted : byName [a] = [a] := byName_of_ascending (by decide)
  have hpackages : (merge (catalogsOf env {} [a])).value.packages =
      [{ entry := { name := "p" }, repos := ["a", "a"] }] := by
    rw [catalogsOf, answersOf, sorted]
    decide +kernel
  refine ⟨_, mergedCatalog_run_fst env isSound_empty rfl (by decide), _,
    hpackages ▸ List.mem_singleton_self _, rfl, by decide⟩

end ClusterPackages.Aggregate
