import ClusterPackages.Proofs.Offers
import ClusterPackages.Proofs.VersionOrder
import Mathlib.Data.List.DropRight

/-! Which version is the latest of several. They are taken one after the other and the greater of
two is kept; but a text that is no version takes the place of whatever was kept, and whatever comes
next takes its place. So the latest version is the highest since the last such text, and the highest
of all if every text can be read. -/

namespace ClusterPackages

/-! ## Texts one after the other -/

/-- A text that says nothing, or names a version. -/
abbrev IsReadable (text : String) : Prop := text = "" ∨ (Version.parse? text).isSome

/-- What comes after the last text that cannot be read. -/
def sinceUnreadable (texts : List String) : List String := texts.rtakeWhile fun t => IsReadable t

/-- A version among the texts, of no lower precedence than any other. -/
structure IsHighest (texts : List String) (text : String) : Prop where
  mem : text ∈ texts
  highest : ∃ v, Version.parse? text = some v ∧
    ∀ t ∈ texts, ∀ w, Version.parse? t = some w → w.precedence ≤ v.precedence

/-- The last text that is not empty. -/
def lastText (texts : List String) : String := (texts.filter (· ≠ "")).getLastD ""

/-- The latest version of texts that are taken in this order. -/
inductive IsLatest (texts : List String) : String → Prop
  | highest {text : String} (h : IsHighest (sinceUnreadable texts) text) : IsLatest texts text
  | last (h : ∀ t ∈ sinceUnreadable texts, t = "") : IsLatest texts (lastText texts)

theorem sinceUnreadable_concat (texts : List String) {t : String} (h : IsReadable t) :
    sinceUnreadable (texts ++ [t]) = sinceUnreadable texts ++ [t] :=
  List.rtakeWhile_concat_pos _ _ _ (by simpa using h)

theorem sinceUnreadable_concat_unreadable (texts : List String) {t : String}
    (h : ¬ IsReadable t) : sinceUnreadable (texts ++ [t]) = [] :=
  List.rtakeWhile_concat_neg _ _ _ (by simpa using h)

theorem lastText_concat_empty (texts : List String) :
    lastText (texts ++ [""]) = lastText texts := by
  simp [lastText]

theorem lastText_concat (texts : List String) {t : String} (h : t ≠ "") :
    lastText (texts ++ [t]) = t := by
  simp [lastText, h]

/-! ## The greater of two -/

theorem parse?_empty : Version.parse? "" = none := by decide +kernel

theorem maxVersion_empty_left (b : String) : maxVersion "" b = b := by
  unfold maxVersion
  split_ifs with h
  · exact h.symm
  · rfl
  · simp at *

theorem maxVersion_empty_right (a : String) : maxVersion a "" = a := if_pos rfl

/-- A text that cannot be read gives way to any other, and any other gives way to it. -/
theorem maxVersion_of_unreadable {a b : String} (hb : b ≠ "")
    (h : Version.parse? a = none ∨ Version.parse? b = none) : maxVersion a b = b := by
  unfold maxVersion
  rw [if_neg hb, isUpgradable_of_unreadable h]
  by_cases hab : a = b
  · simp [hab]
  · rw [if_pos (.inr (by simpa using hab))]

theorem ne_empty_of_parse? {t : String} {v : Version} (h : Version.parse? t = some v) : t ≠ "" := by
  rintro rfl
  rw [parse?_empty] at h
  cases h

/-- A version that is at least the highest so far and the next one is the highest of all. -/
theorem IsHighest.snoc {texts : List String} {b c : String} {u v : Version}
    (h : ∀ t ∈ texts, ∀ w, Version.parse? t = some w → w.precedence ≤ v.precedence)
    (hc : c ∈ texts ++ [b]) (hu : Version.parse? c = some u) (hvu : v.precedence ≤ u.precedence)
    (hb : ∀ w, Version.parse? b = some w → w.precedence ≤ u.precedence) :
    IsHighest (texts ++ [b]) c := by
  refine ⟨hc, u, hu, fun t ht w hw => ?_⟩
  rcases List.mem_append.1 ht with ht | ht
  · exact (h t ht w hw).trans hvu
  · exact hb w (List.mem_singleton.1 ht ▸ hw)

theorem IsHighest.concat {texts : List String} {a b : String} (h : IsHighest texts a)
    (hb : IsReadable b) : IsHighest (texts ++ [b]) (maxVersion a b) := by
  obtain ⟨v, hv, hle⟩ := h.highest
  rcases hb with rfl | hb
  · rw [maxVersion_empty_right]
    refine .snoc hle (List.mem_append_left _ h.mem) hv le_rfl fun w hw => ?_
    exact absurd rfl (ne_empty_of_parse? hw)
  obtain ⟨u, hu⟩ := Option.isSome_iff_exists.1 hb
  have hupgrade :=
    Version.isUpgrade_iff (Version.isProper_of_parse? hv) (Version.isProper_of_parse? hu)
  rw [← isUpgradable_of_parse hv hu] at hupgrade
  unfold maxVersion
  rw [if_neg (ne_empty_of_parse? hu)]
  split_ifs with hnew
  · have hvu : v.precedence ≤ u.precedence := by
      rcases hupgrade.1 (hnew.resolve_left (ne_empty_of_parse? hv)) with hlt | ⟨heq, -⟩
      · exact hlt.le
      · exact heq.le
    refine .snoc hle (by simp) hu hvu fun w hw => ?_
    rw [Option.some.inj (hu.symm.trans hw)]
  · refine .snoc hle (List.mem_append_left _ h.mem) hv le_rfl fun w hw => ?_
    rw [← Option.some.inj (hu.symm.trans hw)]
    exact not_lt.1 fun hlt => hnew (.inr (hupgrade.2 (.inl hlt)))

/-! ## The latest -/

/-- If nothing but empty texts can be read since, then the last text cannot be. -/
theorem parse?_lastText {texts : List String} (h : ∀ t ∈ sinceUnreadable texts, t = "") :
    Version.parse? (lastText texts) = none := by
  induction texts using List.reverseRecOn with
  | nil => exact parse?_empty
  | append_singleton texts t ih =>
    by_cases ht : t = ""
    · subst ht
      rw [sinceUnreadable_concat _ (.inl rfl)] at h
      rw [lastText_concat_empty]
      exact ih fun u hu => h u (List.mem_append_left _ hu)
    · rw [lastText_concat _ ht]
      by_contra hparse
      have hread : IsReadable t := .inr (Option.isSome_iff_ne_none.2 hparse)
      rw [sinceUnreadable_concat _ hread] at h
      exact ht (h t (by simp))

theorem IsLatest.concat {texts : List String} {a : String} (h : IsLatest texts a) (b : String) :
    IsLatest (texts ++ [b]) (maxVersion a b) := by
  by_cases hb : IsReadable b
  · have hsince := sinceUnreadable_concat texts hb
    cases h with
    | highest h => exact .highest (hsince ▸ h.concat hb)
    | last hlast =>
      by_cases hempty : b = ""
      · subst hempty
        rw [maxVersion_empty_right, ← lastText_concat_empty]
        refine .last fun t ht => ?_
        rw [hsince] at ht
        rcases List.mem_append.1 ht with ht | ht
        · exact hlast t ht
        · exact List.mem_singleton.1 ht
      · rw [maxVersion_of_unreadable hempty (.inl (parse?_lastText hlast))]
        obtain ⟨u, hu⟩ := Option.isSome_iff_exists.1 (hb.resolve_left hempty)
        refine .highest (hsince ▸ ⟨by simp, u, hu, fun t ht w hw => ?_⟩)
        rcases List.mem_append.1 ht with ht | ht
        · exact absurd (hlast t ht) (ne_empty_of_parse? hw)
        · rw [List.mem_singleton.1 ht] at hw
          rw [Option.some.inj (hu.symm.trans hw)]
  · have hempty : b ≠ "" := fun h => hb (.inl h)
    have hnone : Version.parse? b = none := by simpa using (not_or.1 hb).2
    have hlatest : IsLatest (texts ++ [b]) (lastText (texts ++ [b])) := by
      refine .last ?_
      rw [sinceUnreadable_concat_unreadable texts hb]
      simp
    rw [maxVersion_of_unreadable hempty (.inr hnone)]
    rwa [lastText_concat texts hempty] at hlatest

/-- What is kept in the end is the latest. -/
theorem isLatest_foldl_maxVersion (texts : List String) :
    IsLatest texts (texts.foldl maxVersion "") := by
  induction texts using List.reverseRecOn with
  | nil => exact .last (by simp [sinceUnreadable])
  | append_singleton texts t ih =>
    rw [List.foldl_concat]
    exact ih.concat t

/-- If every text can be read and one is not empty, then the latest is the highest of all. -/
theorem IsLatest.isHighest {texts : List String} {a : String} (h : IsLatest texts a)
    (readable : ∀ t ∈ texts, IsReadable t) (said : ∃ t ∈ texts, t ≠ "") : IsHighest texts a := by
  have hsince : sinceUnreadable texts = texts :=
    List.rtakeWhile_eq_self_iff.2 fun t ht => by simpa using readable t ht
  cases h with
  | highest h => exact hsince ▸ h
  | last hlast =>
    obtain ⟨t, ht, hne⟩ := said
    exact absurd (hlast t (hsince.symm ▸ ht)) hne

/-! ## Of one package -/

namespace Aggregate

open Clientset

/-- The versions of a package that catalogs show, in the order of the answers. -/
def advertised (name : String) (answers : Answers Catalog) : List String :=
  answers.flatMap fun answer => match answer.2 with
    | .ok catalog => (catalog.packages.filter (·.name = name)).map (·.latestVersion)
    | .error _ => []

/-- The latest versions in the version indexes that were found. -/
def indexed (answers : Answers VersionIndex) : List String :=
  (answers.filterMap (·.2.toOption)).map (·.latestVersion)

/-- The version that is kept of a package; empty if there is none. -/
def latestKept (name : String) (merged : TextMap MergedEntry) : String :=
  ((merged.get? name).map (·.entry.latestVersion)).getD ""

theorem advertised_eq (name : String) (answers : Answers Catalog) :
    advertised name answers = (offers name answers).map (·.2.latestVersion) := by
  unfold advertised offers
  rw [List.map_flatMap]
  congr 1
  funext answer
  cases hanswer : answer.2 with
  | error e => rfl
  | ok catalog => simp [listings]

/-- Each offer keeps the greater of two versions. -/
theorem latest_mergedOf (os : List Offer) :
    ((mergedOf os).map (·.entry.latestVersion)).getD "" =
      (os.map (·.2.latestVersion)).foldl maxVersion "" := by
  induction os using List.reverseRecOn with
  | nil => rfl
  | append_singleton os o ih =>
    rw [mergedOf_concat, List.map_append, List.foldl_append, ← ih]
    cases mergedOf os with
    | none => simp [joined, maxVersion_empty_left]
    | some m => simp [joined]

theorem latestKept_merged (name : String) (answers : Answers Catalog) :
    latestKept name (answers.foldl addAnswer []) = (advertised name answers).foldl maxVersion "" := by
  rw [latestKept, get?_merged, latest_mergedOf, advertised_eq]

theorem isLatest_of_mem_merge {answers : Answers Catalog} {m : MergedEntry}
    (hm : m ∈ (merge answers).value.packages) :
    IsLatest (advertised m.entry.name answers) m.entry.latestVersion := by
  have hkept : latestKept m.entry.name (answers.foldl addAnswer []) = m.entry.latestVersion := by
    rw [latestKept, get?_of_mem_merge hm]
    rfl
  rw [← hkept, latestKept_merged]
  exact isLatest_foldl_maxVersion _

theorem isLatest_of_newest {name : String} {answers : Answers VersionIndex} {latest : String}
    (h : newest name answers = .ok latest) : IsLatest (indexed answers) latest := by
  unfold newest at h
  split at h
  · cases h
  · split at h
    · cases h
    · rw [← Except.ok.inj h]
      exact isLatest_foldl_maxVersion _

theorem latestVersion_run (env : Surroundings) (name : String) (s : Clientset) :
    (latestVersion env name).run s =
      (((ask env id fun c => c.versionIndex env.web name).run s).1.bind (newest name),
        ((ask env id fun c => c.versionIndex env.web name).run s).2) := rfl

/-- The version indexes in the order in which they are gone through. -/
abbrev indexesOf (env : Surroundings) (name : String) (s : Clientset) (rs : List Repository) :
    Answers VersionIndex :=
  answersOf env id (fun c => c.versionIndex env.web name) s rs

theorem latestVersion_run_fst (env : Surroundings) (name : String) {s : Clientset} (h : IsSound s)
    {rs : List Repository} (listed : env.source.repositories = .ok rs)
    (distinct : (rs.map Repository.name).Nodup) :
    ((latestVersion env name).run s).1 = newest name (indexesOf env name s rs) := by
  rw [latestVersion_run,
    ask_run_fst env (ignoresRequests_versionIndex env.web name) h id .refl listed distinct]
  rfl

/-- The latest version of a package in the merged catalog, and over all version indexes, is the
highest since the last text that names no version. -/
theorem latest_is_highest_since_unreadable (env : Surroundings) (s : Clientset) (name : String) :
    (∀ answers, ((ask env List.reverse (RepoClient.catalog env.web)).run s).1 = .ok answers →
      ∃ result, ((mergedCatalog env).run s).1 = .ok result ∧
        ∀ m ∈ result.value.packages,
          IsLatest (advertised m.entry.name answers) m.entry.latestVersion) ∧
    ∀ answers, ((ask env id fun c => c.versionIndex env.web name).run s).1 = .ok answers →
      ∀ latest, ((latestVersion env name).run s).1 = .ok latest →
        IsLatest (indexed answers) latest := by
  refine ⟨fun answers hanswers => ⟨merge answers, ?_, fun m hm => isLatest_of_mem_merge hm⟩,
    fun answers hanswers latest hlatest => ?_⟩
  · rw [mergedCatalog_run, hanswers]
    rfl
  · rw [latestVersion_run, hanswers] at hlatest
    exact isLatest_of_newest hlatest

/-- Where every repository names a version, the highest of all wins. -/
theorem latest_is_highest_of_two :
    let repository (name : String) : Repository :=
      { metadata := { name }, spec := { url := "http://" ++ name } }
    let a := repository "a"
    let b := repository "b"
    let inventory := (({} : Inventory).putRepository a).putRepository b
    let text (s : String) : Reply := .answer 200 none (some (Text.encode s.toList))
    let env : Surroundings :=
      { settings := {}, source := inventory.toSource
        web := fun url =>
          if url = "http://a/index.yaml" then
            text "packages:\n- name: p\n  latestVersion: v1.10.0\n"
          else if url = "http://b/index.yaml" then
            text "packages:\n- name: p\n  latestVersion: v1.9.0\n"
          else if url = "http://a/p/versions.yaml" then text "latestVersion: v1.10.0\n"
          else text "latestVersion: v1.9.0\n" }
    (∃ result, ((mergedCatalog env).run {}).1 = .ok result ∧ result.value.packages ≠ [] ∧
      ∀ m ∈ result.value.packages, IsHighest ["v1.9.0", "v1.10.0"] m.entry.latestVersion) ∧
    ∃ latest, ((latestVersion env "p").run {}).1 = .ok latest ∧
      IsHighest ["v1.10.0", "v1.9.0"] latest := by
  intro repository a b inventory text env
  have listed : List.map Prod.snd inventory.repositories = [a, b] := by decide +kernel
  have sorted : byName [a, b] = [a, b] := byName_of_ascending (by decide)
  have distinct : ([a, b].map Repository.name).Nodup := by decide
  obtain ⟨hcatalogs, hindexes⟩ := latest_is_highest_since_unreadable env {} "p"
  constructor
  · obtain ⟨result, hresult, hlatest⟩ := hcatalogs (catalogsOf env {} [a, b])
      (ask_run_fst env (ignoresRequests_catalog env.web) isSound_empty _ List.reverse_perm
        (congrArg Except.ok listed) distinct)
    have hmerged := mergedCatalog_run_fst env isSound_empty (congrArg Except.ok listed) distinct
    obtain rfl := Except.ok.inj (hresult.symm.trans hmerged)
    have hevaluated : (merge (catalogsOf env {} [a, b])).value.packages =
          [{ entry := { name := "p", latestVersion := "v1.10.0" }, repos := ["a", "b"] }] ∧
        advertised "p" (catalogsOf env {} [a, b]) = ["v1.9.0", "v1.10.0"] := by
      rw [catalogsOf, answersOf, sorted]
      decide +kernel
    obtain ⟨hpackages, hadvertised⟩ := hevaluated
    rw [hpackages] at hlatest
    refine ⟨_, hresult, by simp [hpackages], fun m hm => ?_⟩
    have hm' := hlatest m (hpackages ▸ hm)
    obtain rfl := List.mem_singleton.1 (hpackages ▸ hm)
    exact (hadvertised ▸ hm').isHighest (by decide +kernel) ⟨_, List.mem_cons_self, by decide⟩
  · have hlatest : ((latestVersion env "p").run {}).1.toOption = some "v1.10.0" := by
      rw [latestVersion_run_fst env "p" isSound_empty (congrArg Except.ok listed) distinct,
        indexesOf, answersOf, sorted]
      decide +kernel
    have hindexed : indexed (indexesOf env "p" {} [a, b]) = ["v1.10.0", "v1.9.0"] := by
      rw [indexesOf, answersOf, sorted]
      decide +kernel
    have hrun := congrArg Prod.fst (Run.eq_ok_of_toOption hlatest)
    have h := hindexes (indexesOf env "p" {} [a, b])
      (ask_run_fst env (ignoresRequests_versionIndex env.web "p") isSound_empty id .refl
        (congrArg Except.ok listed) distinct) "v1.10.0" hrun
    exact ⟨_, hrun, (hindexed ▸ h).isHighest (by decide +kernel) ⟨_, List.mem_cons_self, by decide⟩⟩

/-- One text that names no version hides a higher version of another repository. -/
theorem unreadable_hides_higher :
    let repository (name : String) : Repository :=
      { metadata := { name }, spec := { url := "http://" ++ name } }
    let a := repository "a"
    let b := repository "b"
    let c := repository "c"
    let inventory := ((({} : Inventory).putRepository a).putRepository b).putRepository c
    let text (s : String) : Reply := .answer 200 none (some (Text.encode s.toList))
    let env : Surroundings :=
      { settings := {}, source := inventory.toSource
        web := .ofPages true
          [("http://a/index.yaml", text "packages:\n- name: p\n  latestVersion: v1.0.0\n"),
           ("http://b/index.yaml", text "packages:\n- name: p\n  latestVersion: latest\n"),
           ("http://c/index.yaml", text "packages:\n- name: p\n  latestVersion: v2.0.0\n"),
           ("http://a/p/versions.yaml", text "versions: []\nlatestVersion: v2.0.0\n"),
           ("http://b/p/versions.yaml", text "versions: []\nlatestVersion: latest\n"),
           ("http://c/p/versions.yaml", text "versions: []\nlatestVersion: v1.0.0\n")] }
    (∃ result, ((mergedCatalog env).run {}).1 = .ok result ∧ result.value.packages =
      [{ entry := { name := "p", latestVersion := "v1.0.0" }, repos := ["a", "b", "c"] }]) ∧
    ((latestVersion env "p").run {}).1 = .ok "v1.0.0" ∧
    ∃ v w, Version.parse? "v1.0.0" = some v ∧ Version.parse? "v2.0.0" = some w ∧
      v.precedence < w.precedence := by
  intro repository a b c inventory text env
  have listed : List.map Prod.snd inventory.repositories = [a, b, c] := by decide +kernel
  have sorted : byName [a, b, c] = [a, b, c] := byName_of_ascending (by decide)
  have distinct : ([a, b, c].map Repository.name).Nodup := by decide
  refine ⟨⟨_, mergedCatalog_run_fst env isSound_empty (congrArg Except.ok listed) distinct, ?_⟩,
    congrArg Prod.fst (Run.eq_ok_of_toOption ?_), ⟨1, 0, 0, [], []⟩, ⟨2, 0, 0, [], []⟩,
    by decide +kernel, by decide +kernel, ?_⟩
  · rw [catalogsOf, answersOf, sorted]
    decide +kernel
  · rw [latestVersion_run_fst env "p" isSound_empty (congrArg Except.ok listed) distinct,
      indexesOf, answersOf, sorted]
    decide +kernel
  · exact Prod.Lex.toLex_lt_toLex.2 (.inl (by decide))

end Aggregate
end ClusterPackages
