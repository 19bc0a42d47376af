import ClusterPackages.Proofs.Highest
import ClusterPackages.Proofs.Supply
import ClusterPackages.Proofs.Violations

/-! The version that a missing dependency resolves to. Of the versions on offer those that meet the
constraint are gone through, and the greater of two is kept. Which is the greater of two is no order
on texts; but a text that meets a constraint names a version, so what is kept is the highest of all
that meet it (`isHighest_of_best?`), whatever order they are offered in. -/

namespace ClusterPackages

/-- The precedence of the version that a text names. -/
def precedence? (text : String) : Option Version.Precedence :=
  (Version.parse? text).map Version.precedence

/-- Two highest of the same texts differ in nothing that precedence goes by. -/
theorem IsHighest.precedence?_eq {texts texts' : List String} {t t' : String}
    (same : ∀ u, u ∈ texts ↔ u ∈ texts') (h : IsHighest texts t) (h' : IsHighest texts' t') :
    precedence? t = precedence? t' := by
  obtain ⟨v, hv, hle⟩ := h.highest
  obtain ⟨v', hv', hle'⟩ := h'.highest
  have heq : v.precedence = v'.precedence :=
    le_antisymm (hle' t ((same t).1 h.mem) v hv) (hle t' ((same t').2 h'.mem) v' hv')
  unfold precedence?
  rw [hv, hv', Option.map_some, Option.map_some, heq]

/-! ## The greater of two, over texts that say something -/

theorem maxVersion_ne_empty (a : String) {b : String} (hb : b ≠ "") : maxVersion a b ≠ "" := by
  unfold maxVersion
  rw [if_neg hb]
  split_ifs with hkeep
  · exact hb
  · exact fun ha => hkeep (.inl ha)

theorem foldl_maxVersion_eq_empty_iff {texts : List String} (h : ∀ t ∈ texts, t ≠ "") :
    texts.foldl maxVersion "" = "" ↔ texts = [] := by
  rcases texts.eq_nil_or_concat with rfl | ⟨before, t, rfl⟩
  · simp
  · rw [List.concat_eq_append, List.foldl_concat]
    simp [maxVersion_ne_empty _ (h t (by simp))]

/-- Without a constraint a dependency accepts every version. -/
def Dependency.Accepts (d : Dependency) (version : String) : Prop :=
  d.version = "" ∨ validateConstraint version d.version = .ok ()

instance (d : Dependency) (version : String) : Decidable (d.Accepts version) :=
  inferInstanceAs (Decidable (_ ∨ _))

namespace DependencyValidator

/-! ## Versions that a dependency accepts -/

theorem isAcceptable_iff (d : Dependency) (version : String) :
    isAcceptable d.version version = true ↔ version ≠ "" ∧ d.Accepts version := by
  unfold isAcceptable Dependency.Accepts
  cases validateConstraint version d.version <;> simp [Except.toBool]

theorem installedConflict?_eq_none_iff (d : Dependency) (p : InstalledPackage) :
    installedConflict? d p = none ↔ d.Accepts p.desiredVersion := by
  unfold installedConflict? Dependency.Accepts
  by_cases h : d.version = ""
  · simp [h]
  · rw [if_neg h]
    cases validateConstraint p.desiredVersion d.version <;> simp [h]

variable {constraint : String}

theorem isAcceptable_iff_of_constrained (constrained : constraint ≠ "") (text : String) :
    isAcceptable constraint text = true ↔
      text ≠ "" ∧ validateConstraint text constraint = .ok () := by
  rw [isAcceptable_iff { name := "", version := constraint } text]
  simp [Dependency.Accepts, constrained]

theorem best?_eq_none_iff (constraint : String) (texts : List String) :
    best? constraint texts = none ↔ ∀ t ∈ texts, isAcceptable constraint t = false := by
  have hfold : (texts.filter (isAcceptable constraint)).foldl maxVersion "" = "" ↔
      texts.filter (isAcceptable constraint) = [] :=
    foldl_maxVersion_eq_empty_iff fun t ht =>
      ((isAcceptable_iff { name := "", version := constraint } t).1 (List.mem_filter.1 ht).2).1
  rw [List.filter_eq_nil_iff] at hfold
  unfold best?
  dsimp only
  split_ifs with hempty
  · simpa using hfold.1 hempty
  · simpa using mt hfold.2 hempty

/-- The best candidate is the highest of those that meet the constraint. -/
theorem isHighest_of_best? (constrained : constraint ≠ "") {texts : List String} {text : String}
    (h : best? constraint texts = some text) :
    IsHighest (texts.filter (isAcceptable constraint)) text := by
  have hsome : texts.filter (isAcceptable constraint) ≠ [] := fun hnil => by
    have hnone : best? constraint texts = none := by
      rw [best?, hnil]
      rfl
    rw [hnone] at h
    cases h
  have hbest : (texts.filter (isAcceptable constraint)).foldl maxVersion "" = text := by
    unfold best? at h
    dsimp only at h
    split_ifs at h
    exact Option.some.inj h
  have hmeets : ∀ t ∈ texts.filter (isAcceptable constraint),
      t ≠ "" ∧ validateConstraint t constraint = .ok () := fun t ht =>
    (isAcceptable_iff_of_constrained constrained t).1 (List.mem_filter.1 ht).2
  have hlatest := isLatest_foldl_maxVersion (texts.filter (isAcceptable constraint))
  rw [hbest] at hlatest
  obtain ⟨t, ht⟩ := List.exists_mem_of_ne_nil _ hsome
  exact hlatest.isHighest
    (fun t ht => .inr (isSome_parse?_of_validateConstraint (hmeets t ht).2)) ⟨t, ht, (hmeets t ht).1⟩

/-- The best candidate is one of those that are acceptable. -/
theorem accepts_of_best? {d : Dependency} {texts : List String} {text : String}
    (h : best? d.version texts = some text) : d.Accepts text := by
  by_cases hconstrained : d.version = ""
  · exact .inl hconstrained
  · have hmem := (isHighest_of_best? hconstrained h).mem
    exact ((isAcceptable_iff d text).1 (List.mem_filter.1 hmem).2).2

/-- The order of the candidates never shows in the precedence of the best. -/
theorem best?_perm (constrained : constraint ≠ "") {texts texts' : List String}
    (same : texts.Perm texts') :
    (best? constraint texts).map precedence? = (best? constraint texts').map precedence? := by
  have hnone : best? constraint texts = none ↔ best? constraint texts' = none := by
    simp only [best?_eq_none_iff, same.mem_iff]
  cases hbest : best? constraint texts with
  | none => rw [hnone.1 hbest]
  | some t =>
    cases hbest' : best? constraint texts' with
    | none =>
      rw [hnone.2 hbest'] at hbest
      cases hbest
    | some t' =>
      have heq := (isHighest_of_best? constrained hbest).precedence?_eq
        (fun u => (same.filter _).mem_iff) (isHighest_of_best? constrained hbest')
      rw [Option.map_some, Option.map_some, heq]

/-! ## Runs -/

/-- The candidates are what the client supplies, which asking leaves as it was. -/
theorem candidates_run (env : Surroundings) (ref : ClientRef) (name : String) (s : PlanState) :
    ((candidates env ref name).run s).1 =
        ((Clientset.supplyOf env ref s.repos).offered name).mapError .repo ∧
      Clientset.supplyOf env ref ((candidates env ref name).run s).2.repos =
        Clientset.supplyOf env ref s.repos := by
  obtain ⟨hindex, hkept⟩ := Clientset.versionIndex_run env ref name s.repos
  unfold candidates Supply.offered
  rw [Run.bind_of_ok (Plan.onRepos_run _ s), hindex]
  cases (Clientset.supplyOf env ref s.repos).versionIndex name with
  | ok index => exact ⟨rfl, hkept⟩
  | error e =>
    dsimp only
    split_ifs
    · obtain ⟨hlatest, hkept'⟩ := Clientset.latestVersion_run env ref name
        ((Clientset.call ref fun c => c.versionIndex env.web name).run s.repos).2
      rw [hkept] at hlatest hkept'
      rw [Run.bind_pure_eq, Plan.onClient_run, hlatest]
      refine ⟨?_, hkept'⟩
      cases (Clientset.supplyOf env ref s.repos).latestVersion name <;> rfl
    · exact ⟨rfl, hkept⟩

theorem resolve_run (env : Surroundings) (ref : ClientRef) (d : Dependency) (s : PlanState) :
    ((resolve env ref d).run s).1 =
        (((Clientset.supplyOf env ref s.repos).offered d.name).map (best? d.version)).mapError .repo ∧
      Clientset.supplyOf env ref ((resolve env ref d).run s).2.repos =
        Clientset.supplyOf env ref s.repos := by
  obtain ⟨hcandidates, hkept⟩ := candidates_run env ref d.name s
  unfold resolve
  rw [Run.bind_pure_eq, hcandidates]
  refine ⟨?_, hkept⟩
  cases (Clientset.supplyOf env ref s.repos).offered d.name <;> rfl

/-- A constrained dependency resolves to the highest version on offer that meets its constraint, and
to nothing if none does. In whatever order the versions are offered, and by whomever, precedence
cannot tell what it resolves to. -/
theorem resolve_picks_highest (env : Surroundings) (ref : ClientRef) (d : Dependency) (s : PlanState)
    {texts : List String} (constrained : d.version ≠ "")
    (offered : (Clientset.supplyOf env ref s.repos).offered d.name = .ok texts) :
    ∃ best, ((resolve env ref d).run s).1 = .ok best ∧
      (best = none ↔ ∀ t ∈ texts, t ≠ "" → validateConstraint t d.version ≠ .ok ()) ∧
      (∀ t, best = some t →
        t ∈ texts ∧ validateConstraint t d.version = .ok () ∧
          ∃ v, Version.parse? t = some v ∧
            ∀ u ∈ texts, validateConstraint u d.version = .ok () →
              ∃ w, Version.parse? u = some w ∧ w.precedence ≤ v.precedence) ∧
      ∀ env' ref' s' texts', (Clientset.supplyOf env' ref' s'.repos).offered d.name = .ok texts' →
        texts'.Perm texts →
        ∃ best', ((resolve env' ref' d).run s').1 = .ok best' ∧
          best'.map precedence? = best.map precedence? := by
  have hresult {env ref s texts}
      (h : (Clientset.supplyOf env ref s.repos).offered d.name = .ok texts) :
      ((resolve env ref d).run s).1 = .ok (best? d.version texts) := by
    rw [(resolve_run env ref d s).1, h]
    rfl
  refine ⟨best? d.version texts, hresult offered, ?_, fun t hbest => ?_,
    fun env' ref' s' texts' offered' same => ⟨_, hresult offered', best?_perm constrained same⟩⟩
  · rw [best?_eq_none_iff]
    simp only [← Bool.not_eq_true, isAcceptable_iff_of_constrained constrained, not_and]
  · have hhighest := isHighest_of_best? constrained hbest
    obtain ⟨hmem, hmeets⟩ := List.mem_filter.1 hhighest.mem
    obtain ⟨v, hv, hle⟩ := hhighest.highest
    refine ⟨hmem, ((isAcceptable_iff_of_constrained constrained t).1 hmeets).2, v, hv,
      fun u hu hmeets' => ?_⟩
    obtain ⟨w, hw⟩ := Option.isSome_iff_exists.1 (isSome_parse?_of_validateConstraint hmeets')
    refine ⟨w, hw, hle u (List.mem_filter.2 ⟨hu, ?_⟩) w hw⟩
    exact (isAcceptable_iff_of_constrained constrained u).2 ⟨ne_empty_of_parse? hw, hmeets'⟩

/-- Nothing and garbage are on offer beside four versions, one of them twice, out of order. -/
theorem resolve_picks_highest_of_mixed :
    let ref : ClientRef := .built ⟨0, ⟨"http://h", .anonymous, Duration.ofSeconds 300⟩⟩
    let page := "versions:\n- version: v1.9.0\n- version: \"\"\n- version: v1.10.0\n" ++
      "- version: nightly\n- version: v2.0.0\n- version: v1.9.0\n- version: v1.10.0-rc.1\n"
    let env : Surroundings :=
      { settings := {}, source := ({} : Inventory).toSource
        web := .ofPages true
          [("http://h/x/versions.yaml", .answer 200 none (some (Text.encode page.toList)))] }
    let texts := ["v1.9.0", "", "v1.10.0", "nightly", "v2.0.0", "v1.9.0", "v1.10.0-rc.1"]
    (Clientset.supplyOf env ref {}).offered "x" = .ok texts ∧
      ((resolve env ref ⟨"x", "<2"⟩).run {}).1 = .ok (some "v1.10.0") ∧
      ∃ v, Version.parse? "v1.10.0" = some v ∧
        ∀ u ∈ texts, validateConstraint u "<2" = .ok () →
          ∃ w, Version.parse? u = some w ∧ w.precedence ≤ v.precedence := by
  intro ref page env texts
  have htexts : ((Clientset.supplyOf env ref {}).offered "x").toOption = some texts := by
    decide +kernel
  have hoffered : (Clientset.supplyOf env ref {}).offered "x" = .ok texts :=
    congrArg Prod.fst (Run.eq_ok_of_toOption (x := (_, ())) htexts)
  have hbest : best? "<2" texts = some "v1.10.0" := by decide +kernel
  obtain ⟨best, hrun, -, hhighest, -⟩ :=
    resolve_picks_highest env ref ⟨"x", "<2"⟩ {} (by decide) hoffered
  obtain rfl : best = some "v1.10.0" := by
    rw [(resolve_run env ref ⟨"x", "<2"⟩ {}).1, hoffered] at hrun
    exact (Except.ok.inj hrun).symm.trans hbest
  exact ⟨hoffered, hrun, (hhighest _ rfl).2.2⟩

end DependencyValidator
end ClusterPackages
