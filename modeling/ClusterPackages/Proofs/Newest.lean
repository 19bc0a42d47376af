import ClusterPackages.Proofs.Absence
import ClusterPackages.Proofs.BestCandidate

/-! The newest version of a package over all repositories. A repository that lacks the package is
passed over; one that fails in any other way makes the whole answer a failure, whatever the others
say. Otherwise the versions found are taken one after the other, and over texts that say nothing or
name a version with a build number what is kept is a true maximum (`IsTop`). -/

namespace ClusterPackages

open Clientset

/-! ## The greatest of texts with build numbers -/

/-- A text that says nothing, or names a version whose build metadata is absent or a number. -/
def IsNumbered (text : String) : Prop := text = "" ∨ ∃ a : NumberedText, a.text = text

/-- One of the texts, empty only if they all are, that none of the others is an upgrade of. -/
structure IsTop (texts : Set String) (top : String) : Prop where
  mem : top ∈ texts
  empty_iff : top = "" ↔ ∀ t ∈ texts, t = ""
  notUpgradable : ∀ t ∈ texts, t ≠ "" → isUpgradable top t = false

theorem isTop_empty : IsTop {""} "" :=
  ⟨rfl, ⟨fun _ _ h => h, fun h => h "" rfl⟩, fun _ h hne => absurd h hne⟩

/-- An empty text changes nothing beside others. -/
theorem IsTop.insert_empty {texts : Set String} {a : String} (h : IsTop texts a) :
    IsTop (insert "" texts) a := by
  refine ⟨.inr h.mem, by simpa using h.empty_iff, fun t ht hne => ?_⟩
  exact h.notUpgradable t (ht.resolve_left hne) hne

theorem IsTop.of_insert_empty {texts : Set String} {a : String} (h : IsTop (insert "" texts) a)
    (found : texts.Nonempty) : IsTop texts a := by
  have hempty : a = "" ↔ ∀ t ∈ texts, t = "" := by simpa using h.empty_iff
  refine ⟨?_, hempty, fun t ht => h.notUpgradable t (.inr ht)⟩
  rcases h.mem with rfl | hmem
  · obtain ⟨t, ht⟩ := found
    rw [← hempty.1 rfl t ht]
    exact ht
  · exact hmem

theorem IsTop.of_ne_empty {texts : Set String} {a : String} (mem : a ∈ texts) (hne : a ≠ "")
    (h : ∀ t ∈ texts, t ≠ "" → isUpgradable a t = false) : IsTop texts a :=
  ⟨mem, ⟨fun hempty => absurd hempty hne, fun hall => hall a mem⟩, h⟩

/-- The greater of the greatest so far and the next is the greatest of all. -/
theorem IsTop.insert {texts : Set String} {a b : String} (h : IsTop texts a)
    (numbered : ∀ t ∈ texts, IsNumbered t) (hb : IsNumbered b) :
    IsTop (insert b texts) (maxVersion a b) := by
  by_cases hbe : b = ""
  · subst hbe
    rw [maxVersion_empty_right]
    exact h.insert_empty
  obtain ⟨v, rfl⟩ := hb.resolve_left hbe
  have hself : isUpgradable v.text v.text = false := (v.isUpgradable_eq_false_iff v).2 le_rfl
  by_cases hae : a = ""
  · -- whatever was there before says nothing either
    subst hae
    rw [maxVersion_empty_left]
    refine .of_ne_empty (.inl rfl) hbe fun t ht hne => ?_
    rcases ht with rfl | ht
    · exact hself
    · exact absurd (h.empty_iff.1 rfl t ht) hne
  obtain ⟨u, rfl⟩ := (numbered a h.mem).resolve_left hae
  unfold maxVersion
  rw [if_neg hbe]
  split_ifs with hnewer
  · refine .of_ne_empty (.inl rfl) hbe fun t ht hne => ?_
    rcases ht with rfl | ht
    · exact hself
    · obtain ⟨w, rfl⟩ := (numbered t ht).resolve_left hne
      have hwu : w.key ≤ u.key := (u.isUpgradable_eq_false_iff w).1 (h.notUpgradable _ ht hne)
      have huv : u.key < v.key := (u.isUpgradable_iff v).1 (hnewer.resolve_left hae)
      exact (v.isUpgradable_eq_false_iff w).2 (hwu.trans huv.le)
  · refine .of_ne_empty (.inr h.mem) hae fun t ht hne => ?_
    rcases ht with rfl | ht
    · exact Bool.eq_false_iff.2 (not_or.1 hnewer).2
    · exact h.notUpgradable t ht hne

/-- Texts taken one after the other leave the greatest. -/
theorem isTop_foldl_maxVersion {texts : List String} (numbered : ∀ t ∈ texts, IsNumbered t) :
    IsTop (insert "" {t | t ∈ texts}) (texts.foldl maxVersion "") := by
  induction texts using List.reverseRecOn with
  | nil => simpa using isTop_empty
  | append_singleton texts t ih =>
    rw [List.foldl_concat]
    have htexts : insert "" {u | u ∈ texts ++ [t]} = insert t (insert "" {u | u ∈ texts}) := by
      rw [Set.insert_comm]
      congr 1
      ext u
      simp [or_comm]
    rw [htexts]
    have hbefore : ∀ u ∈ texts, IsNumbered u := fun u hu => numbered u (List.mem_append_left _ hu)
    refine (ih hbefore).insert (fun u hu => ?_) (numbered t (by simp))
    rcases hu with rfl | hu
    · exact .inl rfl
    · exact hbefore u hu

namespace Aggregate

/-! ## Over all repositories -/

/-- Those who failed in another way than by lacking what was asked for. -/
def broken {α : Type} (answers : Answers α) : List (Repository × RepoError) :=
  (failed answers).filter fun f => !f.2.isNotFound

theorem mem_broken {α : Type} {answers : Answers α} {r : Repository} {e : RepoError} :
    (r, e) ∈ broken answers ↔ (r, .error e) ∈ answers ∧ e.isNotFound = false := by
  rw [broken, List.mem_filter, mem_failed, Bool.not_eq_true']

/-- Without a failure that counts, what is found is taken one after the other. -/
theorem newest_eq (name : String) (answers : Answers VersionIndex) :
    newest name answers =
      match RepoError.combine ((broken answers).map Prod.snd) with
      | some e => .error e
      | none =>
        if indexed answers = [] then .error (.packageNotFound name)
        else .ok ((indexed answers).foldl maxVersion "") := by
  have hbroken : (failures answers).filter (fun e => !e.isNotFound) =
      (broken answers).map Prod.snd := by
    rw [failures_eq, List.filter_map]
    rfl
  unfold newest indexed
  rw [hbroken]
  cases RepoError.combine ((broken answers).map Prod.snd) with
  | some e => rfl
  | none => cases answers.filterMap (·.2.toOption) <;> rfl

theorem broken_sublist {α : Type} (answers : Answers α) :
    ((broken answers).map Prod.fst).Sublist (answers.map Prod.fst) :=
  (List.filter_sublist.map _).trans (failed_sublist answers)

theorem mem_indexed {answers : Answers VersionIndex} {t : String} :
    t ∈ indexed answers ↔ ∃ r x, (r, .ok x) ∈ answers ∧ x.latestVersion = t := by
  unfold indexed
  simp only [List.mem_map, List.mem_filterMap]
  constructor
  · rintro ⟨x, ⟨⟨r, answer⟩, hmem, hx⟩, rfl⟩
    cases answer with
    | error e => cases hx
    | ok y =>
      obtain rfl : y = x := Option.some.inj hx
      exact ⟨r, y, hmem, rfl⟩
  · rintro ⟨r, x, hmem, rfl⟩
    exact ⟨x, ⟨_, hmem, rfl⟩, rfl⟩

/-- What a repository says of the version index of a package. -/
abbrev indexOf (env : Surroundings) (name : String) (s : Clientset) (r : Repository) :
    Except RepoError VersionIndex :=
  outcome env (fun c => c.versionIndex env.web name) s r

/-- A repository answers that there is no version index of the package. -/
def Lacks (env : Surroundings) (name : String) (s : Clientset) (r : Repository) : Prop :=
  ∃ url, indexOf env name s r = .error (.status url 404)

section

variable {env : Surroundings} {name : String} {s : Clientset} {rs : List Repository}
  {r : Repository} {e : RepoError}

theorem lacks_iff (h : indexOf env name s r = .error e) :
    Lacks env name s r ↔ e.isNotFound = true := by
  rw [outcome_isNotFound_iff h]
  simp only [Lacks, h, Except.error.injEq]

instance : Decidable (Lacks env name s r) :=
  match h : indexOf env name s r with
  | .ok _ => isFalse fun ⟨_, hmissing⟩ => nomatch h.symm.trans hmissing
  | .error _ => decidable_of_iff _ (lacks_iff h).symm

/-- A repository whose client cannot be built fails, and does not lack the package. -/
theorem not_lacks_of_failing (h : ((forRepo env r).run s).1 = .failing e) :
    indexOf env name s r = .error e ∧ ¬ Lacks env name s r := by
  have hindex : indexOf env name s r = .error e := by rw [indexOf, outcome_versionIndex, h]
  refine ⟨hindex, ?_⟩
  rw [lacks_iff hindex, isNotFound_of_failing h]
  exact Bool.false_ne_true

theorem mem_indexesOf {x : Except RepoError VersionIndex} :
    (r, x) ∈ indexesOf env name s rs ↔ r ∈ rs ∧ indexOf env name s r = x :=
  mem_answersOf fun _ => .refl _

theorem mem_broken_indexesOf : (r, e) ∈ broken (indexesOf env name s rs) ↔
    r ∈ rs ∧ indexOf env name s r = .error e ∧ ¬ Lacks env name s r := by
  rw [mem_broken, mem_indexesOf, and_assoc]
  refine and_congr_right fun _ => and_congr_right fun h => ?_
  rw [lacks_iff h, Bool.not_eq_true]

theorem mem_indexed_indexesOf {t : String} : t ∈ indexed (indexesOf env name s rs) ↔
    ∃ r ∈ rs, ∃ x, indexOf env name s r = .ok x ∧ x.latestVersion = t := by
  simp only [mem_indexed, mem_indexesOf, exists_and_left, and_assoc]

/-- If no failure counts, then nothing is found only if every repository lacks the package. -/
theorem indexed_eq_nil_iff (hnone : broken (indexesOf env name s rs) = []) :
    indexed (indexesOf env name s rs) = [] ↔ ∀ r ∈ rs, Lacks env name s r := by
  rw [List.eq_nil_iff_forall_not_mem]
  constructor
  · intro h r hr
    by_contra hhas
    cases hindex : indexOf env name s r with
    | ok x => exact h _ (mem_indexed_indexesOf.2 ⟨r, hr, x, hindex, rfl⟩)
    | error e =>
      have hcounts := mem_broken_indexesOf.2 ⟨hr, hindex, hhas⟩
      rw [hnone] at hcounts
      cases hcounts
  · intro h t ht
    obtain ⟨r, hr, x, hindex, -⟩ := mem_indexed_indexesOf.1 ht
    obtain ⟨url, hmissing⟩ := h r hr
    cases hindex.symm.trans hmissing

end

/-- Over all repositories, every failure that counts is reported and no other, in the order of the
repositories' names. Without any, a package that all of them lack is not found, and one that some
have is answered with the greatest of the versions found. -/
theorem newest_of_all_or_why_not (env : Surroundings) (s : Clientset) (reachable : s.Reachable)
    (name : String) :
    (∀ e, env.source.repositories = .error e → ((latestVersion env name).run s).1 = .error e) ∧
    ∀ rs, env.source.repositories = .ok rs → (rs.map Repository.name).Nodup →
      let result := ((latestVersion env name).run s).1
      ∃ broken : List (Repository × RepoError),
        (∀ r e, (r, e) ∈ broken ↔
          r ∈ rs ∧ indexOf env name s r = .error e ∧ ¬ Lacks env name s r) ∧
        (∀ r ∈ rs, ∀ e, ((forRepo env r).run s).1 = .failing e → (r, e) ∈ broken) ∧
        broken.Pairwise (fun a b => a.1.name < b.1.name) ∧
        ((∃ r e, broken = [(r, e)] ∧ result = .error e) ∨
          2 ≤ broken.length ∧ result = .error (.multiple (broken.map Prod.snd)) ∨
          broken = [] ∧
            (result = .error (.packageNotFound name) ↔ ∀ r ∈ rs, Lacks env name s r) ∧
            ((∃ r ∈ rs, ¬ Lacks env name s r) → ∃ latest, result = .ok latest ∧
              let found : Set String :=
                {t | ∃ r ∈ rs, ∃ x, indexOf env name s r = .ok x ∧ x.latestVersion = t}
              (∀ t ∈ found, IsNumbered t) → IsTop found latest)) := by
  refine ⟨fun e unlisted => ?_, fun rs listed distinct => ?_⟩
  · rw [latestVersion_run, ask_run, unlisted]
    rfl
  intro result
  have hresult : result = newest name (indexesOf env name s rs) :=
    latestVersion_run_fst env name reachable.isSound listed distinct
  refine ⟨broken (indexesOf env name s rs), fun r e => mem_broken_indexesOf,
    fun r hr e h => mem_broken_indexesOf.2 ⟨hr, not_lacks_of_failing h⟩, ?_, ?_⟩
  · have hascending : ((indexesOf env name s rs).map Prod.fst).Pairwise
        fun a b => a.name < b.name := by
      rw [answersOf_fst]
      exact byName_strictlyAscending distinct
    have hbroken := hascending.sublist (broken_sublist (indexesOf env name s rs))
    rwa [List.pairwise_map] at hbroken
  rw [hresult, newest_eq]
  rcases combine_failed (broken (indexesOf env name s rs)) with
    ⟨hnone, hcombined⟩ | ⟨r, e, hone, hcombined⟩ | ⟨hmany, hcombined⟩
  · rw [hcombined, ← indexed_eq_nil_iff hnone]
    refine .inr (.inr ⟨hnone, ?_, fun ⟨r, hr, hhas⟩ => ?_⟩)
    · dsimp only
      split_ifs with h <;> simp [h]
    · have hsome : indexed (indexesOf env name s rs) ≠ [] :=
        fun h => hhas ((indexed_eq_nil_iff hnone).1 h r hr)
      refine ⟨_, if_neg hsome, fun numbered => ?_⟩
      have htop := isTop_foldl_maxVersion fun t ht => numbered t (mem_indexed_indexesOf.1 ht)
      simp only [mem_indexed_indexesOf] at htop
      obtain ⟨t, ht⟩ := List.exists_mem_of_ne_nil _ hsome
      exact htop.of_insert_empty ⟨t, mem_indexed_indexesOf.1 ht⟩
  · rw [hcombined]
    exact .inl ⟨r, e, hone, rfl⟩
  · rw [hcombined]
    exact .inr (.inl ⟨hmany, rfl⟩)

/-- Of three repositories one lacks the first package and all lack the second. A fourth, which no
client can be built for, fails beside the one that fails with the third package. -/
theorem newest_of_all_or_why_not_of_some :
    let repository (name url : String) : Repository := { metadata := { name }, spec := { url } }
    let a := repository "a" "http://a"
    let b := repository "b" "http://b"
    let c := repository "c" "http://c"
    let d := repository "d" "ftp://d"
    let text (s : String) : Reply := .answer 200 none (some (Text.encode s.toList))
    let env : Surroundings :=
      { settings := {}, source := ({} : Inventory).toSource
        web := .ofPages true
          [("http://b/p/versions.yaml", text "latestVersion: v1.0.0+9\n"),
           ("http://c/p/versions.yaml", text "latestVersion: v1.0.0+10\n"),
           ("http://a/u/versions.yaml", text "latestVersion: v2.0.0\n"),
           ("http://b/u/versions.yaml", .answer 500 none none)] }
    (∃ latest, ((latestVersion (env.listing [a, b, c]) "p").run {}).1 = .ok latest ∧ latest ≠ "" ∧
      isUpgradable latest "v1.0.0+9" = false ∧ isUpgradable latest "v1.0.0+10" = false) ∧
    ((latestVersion (env.listing [a, b, c]) "q").run {}).1 = .error (.packageNotFound "q") ∧
    ∃ errors, ((latestVersion (env.listing [a, b, d]) "u").run {}).1 = .error (.multiple errors) := by
  intro repository a b c d text env
  obtain ⟨_, -, -, -, found⟩ :=
    (newest_of_all_or_why_not (env.listing [a, b, c]) {} .new "p").2 [a, b, c] rfl (by decide)
  obtain ⟨lacking, hlacking, -, -, missing⟩ :=
    (newest_of_all_or_why_not (env.listing [a, b, c]) {} .new "q").2 [a, b, c] rfl (by decide)
  obtain ⟨failing, hfailing, unbuilt, -, failed⟩ :=
    (newest_of_all_or_why_not (env.listing [a, b, d]) {} .new "u").2 [a, b, d] rfl (by decide)
  refine ⟨?_, ?_, ?_⟩
  · have hrun : ((latestVersion (env.listing [a, b, c]) "p").run {}).1.isOk := by
      rw [latestVersion_run_fst _ "p" isSound_empty rfl (by decide), indexesOf, answersOf,
        byName_of_ascending (by decide)]
      decide +kernel
    have hindexed : indexed (indexesOf (env.listing [a, b, c]) "p" {} [a, b, c]) =
        ["v1.0.0+9", "v1.0.0+10"] := by
      rw [indexesOf, answersOf, byName_of_ascending (by decide)]
      decide +kernel
    have hhas : ¬ Lacks (env.listing [a, b, c]) "p" {} b := by decide +kernel
    rcases found with ⟨r, e, -, h⟩ | ⟨-, h⟩ | ⟨-, -, h⟩
    · rw [h] at hrun
      cases hrun
    · rw [h] at hrun
      cases hrun
    · obtain ⟨latest, hlatest, htop⟩ := h ⟨b, by simp, hhas⟩
      simp only [← mem_indexed_indexesOf, hindexed] at htop
      have numbered : ∀ t ∈ ["v1.0.0+9", "v1.0.0+10"], IsNumbered t := by
        have nine : IsBuildNumber [['9']] 9 :=
          .number (by decide) (List.all_eq_true.1 rfl) (by decide)
        have ten : IsBuildNumber [['1', '0']] 10 :=
          .number (by decide) (List.all_eq_true.1 rfl) (by decide)
        intro t ht
        rcases List.mem_pair.1 ht with rfl | rfl
        · exact .inr ⟨⟨_, ⟨1, 0, 0, [], [['9']]⟩, 9, by decide +kernel, nine⟩, rfl⟩
        · exact .inr ⟨⟨_, ⟨1, 0, 0, [], [['1', '0']]⟩, 10, by decide +kernel, ten⟩, rfl⟩
      have htop := htop numbered
      refine ⟨latest, hlatest, fun hempty => ?_, htop.notUpgradable _ (by simp) (by decide),
        htop.notUpgradable _ (by simp) (by decide)⟩
      exact absurd (htop.empty_iff.1 hempty "v1.0.0+9" (by simp)) (by decide)
  · have hall : ∀ r ∈ [a, b, c], Lacks (env.listing [a, b, c]) "q" {} r := by decide +kernel
    have hnone : lacking = [] := by
      refine List.eq_nil_iff_forall_not_mem.2 fun f hf => ?_
      obtain ⟨hr, -, hhas⟩ := (hlacking f.1 f.2).1 hf
      exact hhas (hall f.1 hr)
    subst hnone
    rcases missing with ⟨r, e, h, -⟩ | ⟨h, -⟩ | ⟨-, h, -⟩
    · cases h
    · cases h
    · exact h.2 hall
  · have hhas : ¬ Lacks (env.listing [a, b, d]) "u" {} b := by decide +kernel
    obtain ⟨e, hindex⟩ : ∃ e, indexOf (env.listing [a, b, d]) "u" {} b = .error e :=
      Run.exists_eq_error_of_isOk (by decide +kernel)
    obtain ⟨e', hclient⟩ : ∃ e, clientOf (env.listing [a, b, d]) d = .error e :=
      Run.exists_eq_error_of_isOk (by decide +kernel)
    have hb : (b, e) ∈ failing := (hfailing b e).2 ⟨by simp, hindex, hhas⟩
    have hd : (d, e') ∈ failing :=
      unbuilt d (by simp) e' ((forRepo_eq_failing_iff _ _ _ _).2 ⟨rfl, hclient⟩)
    rcases failed with ⟨r, e'', rfl, -⟩ | ⟨-, h⟩ | ⟨rfl, -⟩
    · have hsame := (List.mem_singleton.1 hb).trans (List.mem_singleton.1 hd).symm
      have hrepository : b = d := (Prod.mk.inj hsame).1
      exact absurd hrepository (by decide)
    · exact ⟨_, h⟩
    · cases hd

/-- An empty text that is found beside a version counts as an upgrade of it. -/
theorem empty_is_upgrade_of_newest :
    let repository (name : String) : Repository :=
      { metadata := { name }, spec := { url := "http://" ++ name } }
    let a := repository "a"
    let b := repository "b"
    let text (s : String) : Reply := .answer 200 none (some (Text.encode s.toList))
    let env : Surroundings :=
      { settings := {}, source := { ({} : Inventory).toSource with repositories := .ok [a, b] }
        web := .ofPages true
          [("http://a/p/versions.yaml", text "latestVersion: v1.0.0\n"),
           ("http://b/p/versions.yaml", text "versions: []\n")] }
    ((latestVersion env "p").run {}).1 = .ok "v1.0.0" ∧
    indexed (indexesOf env "p" {} [a, b]) = ["v1.0.0", ""] ∧
    (∀ t ∈ ["v1.0.0", ""], IsNumbered t) ∧ isUpgradable "v1.0.0" "" = true := by
  intro repository a b text env
  have sorted : byName [a, b] = [a, b] := byName_of_ascending (by decide)
  refine ⟨congrArg Prod.fst (Run.eq_ok_of_toOption ?_), ?_, fun t ht => ?_, by decide +kernel⟩
  · rw [latestVersion_run_fst env "p" isSound_empty rfl (by decide), indexesOf, answersOf, sorted]
    decide +kernel
  · rw [indexesOf, answersOf, sorted]
    decide +kernel
  · rcases List.mem_pair.1 ht with rfl | rfl
    · exact .inr ⟨⟨_, ⟨1, 0, 0, [], []⟩, ⊥, by decide +kernel, .absent⟩, rfl⟩
    · exact .inl rfl

end Aggregate
end ClusterPackages
