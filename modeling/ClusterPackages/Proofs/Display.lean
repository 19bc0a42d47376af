import ClusterPackages.Proofs.Offers

/-! What is shown of a package that several repositories offer. Of repositories in descending order
the last that is not the default decides, and the first of all if each is a default. The entry is
taken over as a whole, its version apart, and no version has a say in which. -/

namespace ClusterPackages

/-- What an entry shows besides its version. -/
def CatalogEntry.withoutVersion (e : CatalogEntry) : CatalogEntry := { e with latestVersion := "" }

/-- Catalogs that differ in nothing but versions. What made a catalog fail does not count. -/
def DifferInVersions (x y : Except RepoError Catalog) : Prop :=
  x.toOption.map (·.packages.map CatalogEntry.withoutVersion) =
    y.toOption.map (·.packages.map CatalogEntry.withoutVersion)

instance (x y : Except RepoError Catalog) : Decidable (DifferInVersions x y) :=
  inferInstanceAs (Decidable (_ = _))

namespace Aggregate

open Clientset

/-! ## The offer that is shown -/

/-- The last offer that is not of a default repository, or else the first of all. -/
def preferred (os : List Offer) : Option Offer :=
  (os.filter fun o => !o.1.isDefault).getLast?.or os.head?

/-- What is shown is the preferred offer. -/
theorem entry_mergedOf (os : List Offer) :
    (mergedOf os).map (·.entry.withoutVersion) = (preferred os).map (·.2.withoutVersion) := by
  induction os using List.reverseRecOn with
  | nil => rfl
  | append_singleton os o ih =>
    rw [mergedOf_concat, Option.map_some]
    cases hos : mergedOf os with
    | none =>
      obtain rfl := mergedOf_eq_none_iff.1 hos
      cases hdefault : o.1.isDefault <;> simp [preferred, joined, hdefault]
    | some m =>
      rw [hos, Option.map_some] at ih
      obtain ⟨first, rest, rfl⟩ : ∃ first rest, os = first :: rest :=
        List.exists_cons_of_ne_nil fun h => by simp [mergedOf_eq_none_iff.2 h] at hos
      cases hdefault : o.1.isDefault with
      | true =>
        have hsame : preferred (first :: rest ++ [o]) = preferred (first :: rest) := by
          simp [preferred, hdefault]
        rw [hsame, ← ih]
        simp [joined, hdefault, CatalogEntry.withoutVersion]
      | false =>
        have hlast : preferred (first :: rest ++ [o]) = some o := by
          simp [preferred, hdefault]
        rw [hlast]
        simp [joined, hdefault, CatalogEntry.withoutVersion]

theorem exists_preferred {os : List Offer} {m : MergedEntry} (h : mergedOf os = some m) :
    ∃ o, preferred os = some o ∧ m.entry.withoutVersion = o.2.withoutVersion := by
  have hentry := entry_mergedOf os
  rw [h, Option.map_some] at hentry
  obtain ⟨o, ho, heq⟩ := Option.map_eq_some_iff.1 hentry.symm
  exact ⟨o, ho, heq.symm⟩

theorem mem_of_preferred {os : List Offer} {o : Offer} (h : preferred os = some o) : o ∈ os := by
  rcases Option.or_eq_some_iff.1 h with h | ⟨-, h⟩
  · exact (List.mem_filter.1 (List.mem_of_getLast? h)).1
  · exact List.mem_of_head? h

/-- Which repository decides what is shown, among those that offer a package. -/
inductive HasPrecedence (offering : Repository → Prop) (r : Repository) : Prop
  | other (isOther : r.isDefault = false)
      (first : ∀ r', offering r' → r'.isDefault = false → r.name ≤ r'.name)
  | default (onlyDefaults : ∀ r', offering r' → r'.isDefault = true)
      (last : ∀ r', offering r' → r'.name ≤ r.name)

theorem hasPrecedence_of_preferred {os : List Offer}
    (descending : os.Pairwise fun a b => b.1.name ≤ a.1.name) {o : Offer}
    (h : preferred os = some o) : HasPrecedence (fun r => ∃ e, (r, e) ∈ os) o.1 := by
  have hothers := descending.filter fun o => !o.1.isDefault
  rcases Option.or_eq_some_iff.1 h with hlast | ⟨hnone, hfirst⟩
  · obtain ⟨before, hbefore⟩ := List.getLast?_eq_some_iff.1 hlast
    have hmem : o ∈ os.filter fun o => !o.1.isDefault := List.mem_of_getLast? hlast
    refine .other (by simpa using (List.mem_filter.1 hmem).2) fun r' ⟨e, he⟩ hr' => ?_
    have hr : (r', e) ∈ before ++ [o] :=
      hbefore ▸ List.mem_filter.2 ⟨he, by simpa using hr'⟩
    rw [hbefore] at hothers
    rcases List.mem_append.1 hr with hr | hr
    · exact (List.pairwise_append.1 hothers).2.2 _ hr o (by simp)
    · rw [← List.mem_singleton.1 hr]
  · have hdefaults : ∀ o' ∈ os, o'.1.isDefault = true := by
      simpa [List.filter_eq_nil_iff] using List.getLast?_eq_none_iff.1 hnone
    obtain ⟨rest, rfl⟩ := List.head?_eq_some_iff.1 hfirst
    refine .default (fun r' ⟨e, he⟩ => hdefaults _ he) fun r' ⟨e, he⟩ => ?_
    rcases List.mem_cons.1 he with rfl | he
    · exact le_rfl
    · have hle := (List.pairwise_cons.1 descending).1 (r', e) he
      exact hle

/-! ## Versions have no say -/

def Offer.withoutVersion (o : Offer) : Offer := (o.1, o.2.withoutVersion)

theorem preferred_map_withoutVersion (os : List Offer) :
    preferred (os.map Offer.withoutVersion) = (preferred os).map Offer.withoutVersion := by
  unfold preferred
  rw [List.filter_map, List.getLast?_map, List.head?_map, Option.map_or]
  rfl

theorem listings_withoutVersion (name : String) {x y : Except RepoError Catalog}
    (h : DifferInVersions x y) :
    (listings name x).map CatalogEntry.withoutVersion =
      (listings name y).map CatalogEntry.withoutVersion := by
  have hfilter (es : List CatalogEntry) :
      (es.filter (·.name = name)).map CatalogEntry.withoutVersion =
        (es.map CatalogEntry.withoutVersion).filter (·.name = name) := by
    rw [List.filter_map]
    rfl
  unfold DifferInVersions at h
  cases x with
  | error e =>
    cases y with
    | error e' => rfl
    | ok c' => cases h
  | ok c =>
    cases y with
    | error e' => cases h
    | ok c' =>
      have hpackages := Option.some.inj h
      dsimp only [listings]
      rw [hfilter, hfilter]
      exact congrArg _ hpackages

theorem offers_withoutVersion (name : String) (rs : List Repository)
    {x y : Repository → Except RepoError Catalog} (h : ∀ r ∈ rs, DifferInVersions (x r) (y r)) :
    (offers name (rs.map fun r => (r, x r))).map Offer.withoutVersion =
      (offers name (rs.map fun r => (r, y r))).map Offer.withoutVersion := by
  induction rs with
  | nil => rfl
  | cons r rs ih =>
    obtain ⟨hr, hrs⟩ := List.forall_mem_cons.1 h
    have hsplit (z : Repository → Except RepoError Catalog) :
        (offers name ((r :: rs).map fun r => (r, z r))).map Offer.withoutVersion =
          ((listings name (z r)).map CatalogEntry.withoutVersion).map (r, ·) ++
            (offers name (rs.map fun r => (r, z r))).map Offer.withoutVersion := by
      simp [offers, Offer.withoutVersion, Function.comp_def]
    rw [hsplit, hsplit, ih hrs, listings_withoutVersion name hr]

/-- What is shown of all packages, by name. -/
def display (merged : TextMap MergedEntry) : TextMap CatalogEntry :=
  List.map (fun e => (e.1, e.2.entry.withoutVersion)) merged

theorem get?_display (merged : TextMap MergedEntry) (name : String) :
    (display merged).get? name = (merged.get? name).map (·.entry.withoutVersion) := by
  induction merged with
  | nil => rfl
  | cons e merged ih =>
    have hcons : display (e :: merged) = (e.1, e.2.entry.withoutVersion) :: display merged := rfl
    rw [hcons, TextMap.get?_cons, TextMap.get?_cons, ih]
    split_ifs <;> rfl

theorem display_congr {answers answers' : Answers Catalog}
    (h : ∀ name, (offers name answers).map Offer.withoutVersion =
      (offers name answers').map Offer.withoutVersion) :
    display (answers.foldl addAnswer []) = display (answers'.foldl addAnswer []) := by
  have sorted (answers : Answers Catalog) : (display (answers.foldl addAnswer [])).IsSorted :=
    List.pairwise_map.2 (isKeyed_merged answers).sorted
  refine TextMap.eq_of_get? (sorted answers) (sorted answers') fun name => ?_
  have hpreferred : (preferred (offers name answers)).map Offer.withoutVersion =
      (preferred (offers name answers')).map Offer.withoutVersion := by
    rw [← preferred_map_withoutVersion, ← preferred_map_withoutVersion, h name]
  have hentry := congrArg (Option.map Prod.snd) hpreferred
  rw [Option.map_map, Option.map_map] at hentry
  rw [get?_display, get?_display, get?_merged, get?_merged, entry_mergedOf, entry_mergedOf]
  exact hentry

theorem merge_display (answers : Answers Catalog) :
    (merge answers).value.packages.map (·.entry.withoutVersion) =
      List.map Prod.snd (display (answers.foldl addAnswer [])) := by
  simp [merge, display, Function.comp_def]

/-! ## In the merged catalog -/

/-- What is shown of a package is one entry, taken over as a whole from the first by name of the
repositories that offer it, default ones apart, or from the last by name if only default ones do.
Versions have no say in which. -/
theorem mergedCatalog_shows_preferred (env : Surroundings) (s : Clientset)
    (reachable : s.Reachable) (rs : List Repository) (listed : env.source.repositories = .ok rs)
    (distinct : (rs.map Repository.name).Nodup) :
    let catalog (r : Repository) := outcome env (RepoClient.catalog env.web) s r
    ∃ result, ((mergedCatalog env).run s).1 = .ok result ∧
      (∀ r ∈ rs, ∀ x, catalog r = .ok x → ∀ e ∈ x.packages,
        ∃ m ∈ result.value.packages, m.entry.name = e.name) ∧
      (∀ m ∈ result.value.packages, ∃ r ∈ rs,
        HasPrecedence (fun r => r ∈ rs ∧ ∃ x, catalog r = .ok x ∧
          ∃ e ∈ x.packages, e.name = m.entry.name) r ∧
        ∃ x, catalog r = .ok x ∧ ∃ e ∈ x.packages, e.name = m.entry.name ∧
          m.entry.withoutVersion = e.withoutVersion) ∧
      ∀ (env' : Surroundings) (s' : Clientset), s'.Reachable →
        env'.source.repositories = .ok rs →
        (∀ r ∈ rs, DifferInVersions (catalog r)
          (outcome env' (RepoClient.catalog env'.web) s' r)) →
        ∃ result', ((mergedCatalog env').run s').1 = .ok result' ∧
          result'.value.packages.map (·.entry.withoutVersion) =
            result.value.packages.map (·.entry.withoutVersion) := by
  intro catalog
  refine ⟨_, mergedCatalog_run_fst env reachable.isSound listed distinct, ?_, fun m hm => ?_, ?_⟩
  · intro r hr x hx e he
    have hlistings : listings e.name (catalog r) ≠ [] :=
      listings_ne_nil_iff.2 ⟨x, hx, e, he, rfl⟩
    exact exists_mem_merge_iff.2 (offers_catalogsOf_ne_nil_iff.2 ⟨r, hr, hlistings⟩)
  · obtain ⟨o, ho, hshown⟩ := exists_preferred (mem_merge_iff.1 hm)
    have hmem (r : Repository) (e : CatalogEntry) :
        (r, e) ∈ offers m.entry.name (catalogsOf env s rs) ↔
          r ∈ rs ∧ ∃ x, catalog r = .ok x ∧ e ∈ x.packages ∧ e.name = m.entry.name :=
      mem_offers_catalogsOf.trans (and_congr_right fun _ => mem_listings)
    obtain ⟨hr, x, hx, he, hname⟩ := (hmem o.1 o.2).1 (mem_of_preferred ho)
    have hprecedence :=
      hasPrecedence_of_preferred (offers_descending (catalogsOf_descending distinct) _) ho
    refine ⟨o.1, hr, ?_, x, hx, o.2, he, hname, hshown⟩
    have hoffering : (fun r => ∃ e, (r, e) ∈ offers m.entry.name (catalogsOf env s rs)) =
        fun r => r ∈ rs ∧ ∃ x, catalog r = .ok x ∧ ∃ e ∈ x.packages, e.name = m.entry.name := by
      funext r
      simp only [hmem, eq_iff_iff]
      tauto
    exact hoffering ▸ hprecedence
  · intro env' s' reachable' listed' hversions
    refine ⟨_, mergedCatalog_run_fst env' reachable'.isSound listed' distinct, ?_⟩
    rw [merge_display, merge_display]
    refine congrArg _ (display_congr fun name => ?_)
    refine (offers_withoutVersion name (byName rs).reverse fun r hr => ?_).symm
    exact hversions r ((byName_perm rs).subset (List.mem_reverse.1 hr))

/-- Of three repositories the default one shows the highest version, and the other two come before
it. With other versions the same is shown. -/
theorem mergedCatalog_shows_preferred_other :
    let a : Repository :=
      Repository.setDefault true { metadata := { name := "a" }, spec := { url := "http://a" } }
    let b : Repository := { metadata := { name := "b" }, spec := { url := "http://b" } }
    let c : Repository := { metadata := { name := "c" }, spec := { url := "http://c" } }
    let inventory := ((({} : Inventory).putRepository a).putRepository b).putRepository c
    let page (text : String) : Reply := .answer 200 none (some (Text.encode text.toList))
    let env (web : Web) : Surroundings := { settings := {}, source := inventory.toSource, web }
    let before := env <| .ofPages true
      [("http://a/index.yaml", page "packages:\n- name: p\n  latestVersion: 9\n- name: q\n"),
       ("http://b/index.yaml", page "packages:\n- name: p\n  iconUrl: b\n"),
       ("http://c/index.yaml", page "packages:\n- name: p\n  iconUrl: c\n")]
    let after := env <| .ofPages true
      [("http://a/index.yaml", page "packages:\n- name: p\n- name: q\n"),
       ("http://b/index.yaml", page "packages:\n- name: p\n  iconUrl: b\n"),
       ("http://c/index.yaml", page "packages:\n- name: p\n  iconUrl: c\n  latestVersion: x\n")]
    ∃ result, ((mergedCatalog before).run {}).1 = .ok result ∧
      (∃ m ∈ result.value.packages, m.entry.name = "p" ∧ m.entry.iconUrl = "b") ∧
      ∃ result', ((mergedCatalog after).run {}).1 = .ok result' ∧
        result'.value.packages.map (·.entry.withoutVersion) =
          result.value.packages.map (·.entry.withoutVersion) := by
  intro a b c inventory page env before after
  have listed : List.map Prod.snd inventory.repositories = [a, b, c] := by decide +kernel
  have offered : (outcome before (RepoClient.catalog before.web) {} b).toOption.map (·.packages) =
      some [{ name := "p", iconUrl := "b" }] := by
    decide +kernel
  have versions : ∀ r ∈ [a, b, c],
      DifferInVersions (outcome before (RepoClient.catalog before.web) {} r)
        (outcome after (RepoClient.catalog after.web) {} r) := by
    decide +kernel
  obtain ⟨result, hrun, hentries, hshown, hother⟩ :=
    mergedCatalog_shows_preferred before {} .new [a, b, c] (congrArg Except.ok listed) (by decide)
  obtain ⟨x, hsome, hpackages⟩ := Option.map_eq_some_iff.1 offered
  have hx : outcome before (RepoClient.catalog before.web) {} b = .ok x :=
    congrArg Prod.fst (Run.eq_ok_of_toOption hsome)
  have hp : (⟨"p", "", "b", "", none⟩ : CatalogEntry) ∈ x.packages := by simp [hpackages]
  refine ⟨result, hrun, ?_, hother after {} .new (congrArg Except.ok listed) versions⟩
  obtain ⟨m, hm, hname⟩ := hentries b (by simp) x hx _ hp
  refine ⟨m, hm, hname, ?_⟩
  obtain ⟨r, hr, hprecedence, y, hy, e, he, -, heq⟩ := hshown m hm
  have hb : r = b := by
    cases hprecedence with
    | other isOther first =>
      have hle := first b ⟨by simp, x, hx, _, hp, hname.symm⟩ rfl
      simp only [List.mem_cons, List.not_mem_nil, or_false] at hr
      rcases hr with rfl | rfl | rfl
      · cases isOther
      · rfl
      · exact absurd hle (by decide)
    | default onlyDefaults =>
      have hdefault := onlyDefaults b ⟨by simp, x, hx, _, hp, hname.symm⟩
      cases hdefault
  subst hb
  obtain rfl := Except.ok.inj (hx.symm.trans hy)
  rw [hpackages] at he
  obtain rfl := List.mem_singleton.1 he
  exact congrArg CatalogEntry.iconUrl heq

end Aggregate
end ClusterPackages
