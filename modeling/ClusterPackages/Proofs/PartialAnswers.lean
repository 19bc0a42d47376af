import ClusterPackages.Proofs.Offers

/-! Who offers a package. A repository that fails may offer it or not, so nothing is said of it; but
its failure is told. The answer is complete if nobody fails, partial if some do and others offer the
package, and a failure if some do and nobody else offers it. -/

namespace ClusterPackages.Aggregate

open Clientset

/-! ## Failures in one -/

/-- What failures are reported as: one as it is, and several all together. -/
inductive IsReport (failing : List (Repository × RepoError)) : RepoError → Prop
  | one {r : Repository} {e : RepoError} (h : failing = [(r, e)]) : IsReport failing e
  | several (h : 2 ≤ failing.length) : IsReport failing (.multiple (failing.map Prod.snd))

theorem IsReport.ne_nil {failing : List (Repository × RepoError)} {e : RepoError}
    (h : IsReport failing e) : failing ≠ [] := by
  rintro rfl
  cases h with
  | one h => cases h
  | several h => cases h

/-- Either nobody failed and there is nothing to report, or there is one report. -/
theorem combine_eq_none_or_some (failing : List (Repository × RepoError)) :
    (failing = [] ∧ RepoError.combine (failing.map Prod.snd) = none) ∨
      ∃ e, IsReport failing e ∧ RepoError.combine (failing.map Prod.snd) = some e := by
  rcases combine_failed failing with h | ⟨r, e, hone, hcombined⟩ | ⟨hmany, hcombined⟩
  · exact .inl h
  · exact .inr ⟨e, .one hone, hcombined⟩
  · exact .inr ⟨_, .several hmany, hcombined⟩

/-! ## Those who offer a package -/

/-- Those whose catalog lists a package. -/
def listing (name : String) (answers : Answers Catalog) : List Repository :=
  (answers.filter fun answer => listings name answer.2 ≠ []).map Prod.fst

theorem mem_listing {name : String} {answers : Answers Catalog} {r : Repository} :
    r ∈ listing name answers ↔ ∃ answer, (r, answer) ∈ answers ∧ listings name answer ≠ [] := by
  simp [listing]

theorem listing_sublist (name : String) (answers : Answers Catalog) :
    (listing name answers).Sublist (answers.map Prod.fst) := List.filter_sublist.map _

theorem isSome_get?_iff (c : Catalog) (name : String) :
    (c.get? name).isSome = true ↔ listings name (.ok c) ≠ [] := by
  simp [Catalog.get?, listings, List.filter_eq_nil_iff]

/-- A search that takes those who list a package and leaves out those who fail finds who lists it. -/
theorem filterMap_eq_listing {name : String} {answers : Answers Catalog}
    {found : Repository × Except RepoError Catalog → Option Repository}
    (hok : ∀ r catalog, found (r, .ok catalog) = if (catalog.get? name).isSome then some r else none)
    (herror : ∀ r e, found (r, .error e) = none) : answers.filterMap found = listing name answers := by
  unfold listing
  rw [← List.filterMap_eq_map, List.filterMap_filter]
  refine List.filterMap_congr fun answer _ => ?_
  rcases answer with ⟨r, e | catalog⟩
  · simp [herror, listings]
  · simp only [hok, isSome_get?_iff, decide_eq_true_eq]
    rfl

theorem offering_eq (name : String) (answers : Answers Catalog) :
    offering name answers =
      match RepoError.combine ((failed answers).map Prod.snd), listing name answers with
      | none, rs => .ok { value := rs, error := none }
      | some e, [] => .error e
      | some e, rs => .ok { value := rs, error := some (.partialResult e) } := by
  unfold offering
  rw [failures_eq, filterMap_eq_listing]
  · rfl
  · exact fun _ _ => rfl
  · exact fun _ _ => rfl

theorem repositoriesOffering_run (env : Surroundings) (name : String) (s : Clientset) :
    (repositoriesOffering env name).run s =
      (((ask env id (RepoClient.catalog env.web)).run s).1.bind (offering name),
        ((ask env id (RepoClient.catalog env.web)).run s).2) := rfl

/-- Who offers a package is told in full if nobody fails. Otherwise every failure is reported, beside
those who are known to offer the package or, if there are none, in place of them. -/
theorem offering_in_full_in_part_or_not_at_all (env : Surroundings) (s : Clientset)
    (reachable : s.Reachable) (name : String) :
    (∀ e, env.source.repositories = .error e →
      ((repositoriesOffering env name).run s).1 = .error e) ∧
    ∀ rs, env.source.repositories = .ok rs → (rs.map Repository.name).Nodup →
      let catalog (r : Repository) := outcome env (RepoClient.catalog env.web) s r
      let result := ((repositoriesOffering env name).run s).1
      ∃ (known : List Repository) (failing : List (Repository × RepoError)),
        (∀ r, r ∈ known ↔
          r ∈ rs ∧ ∃ x, catalog r = .ok x ∧ ∃ e ∈ x.packages, e.name = name) ∧
        known.Pairwise (fun a b => a.name < b.name) ∧
        (∀ r e, (r, e) ∈ failing ↔ r ∈ rs ∧ catalog r = .error e) ∧
        failing.Pairwise (fun a b => a.1.name < b.1.name) ∧
        (failing = [] ∧ result = .ok { value := known, error := none } ∨
          ∃ e, IsReport failing e ∧
            (known = [] ∧ result = .error e ∨
              known ≠ [] ∧ result = .ok { value := known, error := some (.partialResult e) })) := by
  refine ⟨fun e unlisted => ?_, fun rs listed distinct => ?_⟩
  · rw [repositoriesOffering_run, ask_run, unlisted]
    rfl
  intro catalog result
  let answers : Answers Catalog := answersOf env id (RepoClient.catalog env.web) s rs
  have hmem {r : Repository} {x : Except RepoError Catalog} :
      (r, x) ∈ answers ↔ r ∈ rs ∧ catalog r = x := mem_answersOf fun _ => .refl _
  have hascending : (answers.map Prod.fst).Pairwise fun a b => a.name < b.name := by
    rw [answersOf_fst]
    exact byName_strictlyAscending distinct
  have hresult : result = offering name answers := by
    have hask := ask_run_fst env (ignoresRequests_catalog env.web) reachable.isSound id
      (fun _ => .refl _) listed distinct
    exact congrArg (Except.bind · (offering name)) hask
  refine ⟨listing name answers, failed answers, fun r => ?_,
    hascending.sublist (listing_sublist name answers), fun r e => ?_, ?_, ?_⟩
  · simp only [mem_listing, hmem, listings_ne_nil_iff]
    constructor
    · rintro ⟨_, ⟨hr, rfl⟩, hlisted⟩
      exact ⟨hr, hlisted⟩
    · rintro ⟨hr, hlisted⟩
      exact ⟨_, ⟨hr, rfl⟩, hlisted⟩
  · rw [mem_failed, hmem]
  · have hfailed := hascending.sublist (failed_sublist answers)
    rwa [List.pairwise_map] at hfailed
  rw [hresult, offering_eq]
  rcases combine_eq_none_or_some (failed answers) with ⟨hnone, hcombined⟩ | ⟨e, he, hcombined⟩
  · rw [hcombined]
    exact .inl ⟨hnone, rfl⟩
  · rw [hcombined]
    refine .inr ⟨e, he, ?_⟩
    cases listing name answers with
    | nil => exact .inl ⟨rfl, rfl⟩
    | cons r known => exact .inr ⟨List.cons_ne_nil r known, rfl⟩

/-- Of three repositories the second fails. A package that the others list is answered in part, and
one that nobody lists is answered with the failure; without the second there is nobody to fail. -/
theorem offering_in_full_in_part_or_not_at_all_of_three :
    let repository (name : String) : Repository :=
      { metadata := { name }, spec := { url := "http://" ++ name } }
    let a := repository "a"
    let b := repository "b"
    let c := repository "c"
    let text (s : String) : Reply := .answer 200 none (some (Text.encode s.toList))
    let env : Surroundings :=
      { settings := {}, source := ({} : Inventory).toSource
        web := .ofPages true
          [("http://a/index.yaml", text "packages:\n- name: p\n- name: p\n"),
           ("http://b/index.yaml", .answer 503 none none),
           ("http://c/index.yaml", text "packages:\n- name: p\n")] }
    let result (rs : List Repository) (name : String) :=
      ((repositoriesOffering (env.listing rs) name).run {}).1
    (∃ known e, result [c, b, a] "p" = .ok { value := known, error := some (.partialResult e) } ∧
      a ∈ known ∧ c ∈ known ∧ b ∉ known ∧ known.Pairwise fun r r' => r.name < r'.name) ∧
    (∃ e, result [c, b, a] "q" = .error e) ∧
    result [c, a] "q" = .ok { value := [], error := none } := by
  intro repository a b c text env result
  have lists : listings "p" (outcome env (RepoClient.catalog env.web) {} a) ≠ [] ∧
      listings "p" (outcome env (RepoClient.catalog env.web) {} c) ≠ [] ∧
      ∀ r ∈ [c, b, a], listings "q" (outcome env (RepoClient.catalog env.web) {} r) = [] := by
    decide +kernel
  obtain ⟨ha, hc, hnobody⟩ := lists
  obtain ⟨e, hb⟩ : ∃ e, outcome env (RepoClient.catalog env.web) {} b = .error e :=
    Run.exists_eq_error_of_isOk (by decide +kernel)
  have hanswers : ∀ r ∈ [c, a], (outcome env (RepoClient.catalog env.web) {} r).isOk = true := by
    decide +kernel
  have nobody_known {known : List Repository}
      (hknown : ∀ r ∈ known, r ∈ [c, b, a] ∧
        ∃ x, outcome env (RepoClient.catalog env.web) {} r = .ok x ∧ ∃ e ∈ x.packages, e.name = "q") :
      known = [] := by
    refine List.eq_nil_iff_forall_not_mem.2 fun r hr => ?_
    obtain ⟨hr, hlisted⟩ := hknown r hr
    exact listings_ne_nil_iff.2 hlisted (hnobody r hr)
  refine ⟨?_, ?_, ?_⟩
  · obtain ⟨known, failing, hknown, hascending, hfailing, -, hresult⟩ :=
      (offering_in_full_in_part_or_not_at_all (env.listing [c, b, a]) {} .new "p").2 [c, b, a] rfl
        (by decide)
    have hknown_a : a ∈ known := (hknown a).2 ⟨by simp, listings_ne_nil_iff.1 ha⟩
    have hknown_c : c ∈ known := (hknown c).2 ⟨by simp, listings_ne_nil_iff.1 hc⟩
    have hknown_b : b ∉ known := fun h => by
      obtain ⟨-, x, hx, -⟩ := (hknown b).1 h
      cases hb.symm.trans hx
    have hfailing_b : (b, e) ∈ failing := (hfailing b e).2 ⟨by simp, hb⟩
    rcases hresult with ⟨rfl, -⟩ | ⟨e', -, ⟨rfl, -⟩ | ⟨-, h⟩⟩
    · cases hfailing_b
    · cases hknown_a
    · exact ⟨known, e', h, hknown_a, hknown_c, hknown_b, hascending⟩
  · obtain ⟨known, failing, hknown, -, hfailing, -, hresult⟩ :=
      (offering_in_full_in_part_or_not_at_all (env.listing [c, b, a]) {} .new "q").2 [c, b, a] rfl
        (by decide)
    have hfailing_b : (b, e) ∈ failing := (hfailing b e).2 ⟨by simp, hb⟩
    rcases hresult with ⟨rfl, -⟩ | ⟨e', -, ⟨-, h⟩ | ⟨hne, -⟩⟩
    · cases hfailing_b
    · exact ⟨e', h⟩
    · exact absurd (nobody_known fun r => (hknown r).1) hne
  · obtain ⟨known, failing, hknown, -, hfailing, -, hresult⟩ :=
      (offering_in_full_in_part_or_not_at_all (env.listing [c, a]) {} .new "q").2 [c, a] rfl
        (by decide)
    have hnil : known = [] := nobody_known fun r hr => by
      obtain ⟨hr, hlisted⟩ := (hknown r).1 hr
      refine ⟨?_, hlisted⟩
      rcases List.mem_pair.1 hr with rfl | rfl <;> simp
    have hnone : failing = [] := List.eq_nil_iff_forall_not_mem.2 fun f hf => by
      obtain ⟨hr, hf⟩ := (hfailing f.1 f.2).1 hf
      have hok : (Except.error f.2 : Except RepoError Catalog).isOk = true := hf ▸ hanswers f.1 hr
      cases hok
    rcases hresult with ⟨-, h⟩ | ⟨e', he, -⟩
    · exact hnil ▸ h
    · exact absurd hnone he.ne_nil

end ClusterPackages.Aggregate
