import ClusterPackages.PackageStore
import ClusterPackages.Proofs.Entries
import ClusterPackages.Proofs.Highest
import ClusterPackages.Proofs.Stepwise

/-! No plan goes back to a lower version. An entry's version has at least the precedence of the one
that its package wants, and if it has the same, then build metadata that moves on. A single package
is refused any other version before anybody is asked. -/

namespace ClusterPackages

/-! ## Texts that move on -/

/-- A text that is a version may take the place of one that is a version. -/
def MayFollow (installed version : String) : Prop :=
  ∀ i l, Version.parse? installed = some i → Version.parse? version = some l → i.Follows l

theorem mayFollow_of_isUpgradable {installed version : String}
    (h : isUpgradable installed version = true) : MayFollow installed version := by
  intro i l hi hl
  exact (isUpgradable_iff_follows hi hl).1 h

/-- Why a version is not newer than the one that a package wants. -/
inductive IsRefused (installed requested : String) : Prop
  | lower {i l : Version} (hi : Version.parse? installed = some i)
      (hl : Version.parse? requested = some l) (h : l.precedence < i.precedence)
  | tied {i l : Version} (hi : Version.parse? installed = some i)
      (hl : Version.parse? requested = some l) (h : l.precedence = i.precedence)
      (build : ¬ BuildAdvances i.build l.build)
  /-- Texts that are no versions are told apart as they are. -/
  | same (h : Version.parse? installed = none ∨ Version.parse? requested = none)
      (same : installed = requested)

theorem isRefused_iff (installed requested : String) :
    IsRefused installed requested ↔ isUpgradable installed requested = false := by
  have hread {i l : Version} (hi : Version.parse? installed = some i)
      (hl : Version.parse? requested = some l) :
      isUpgradable installed requested = false ↔ ¬ i.Follows l := by
    rw [← isUpgradable_iff_follows hi hl, Bool.not_eq_true]
  constructor
  · intro h
    cases h with
    | lower hi hl h => exact (hread hi hl).2 ((Version.not_follows_iff _ _).2 (.inl h))
    | tied hi hl h build => exact (hread hi hl).2 ((Version.not_follows_iff _ _).2 (.inr ⟨h, build⟩))
    | same h same => rw [isUpgradable_of_unreadable h, same, bne_self_eq_false]
  · intro h
    by_cases hread' : Version.parse? installed = none ∨ Version.parse? requested = none
    · rw [isUpgradable_of_unreadable hread'] at h
      exact .same hread' (by simpa using h)
    · obtain ⟨hinstalled, hrequested⟩ := not_or.1 hread'
      obtain ⟨i, hi⟩ := Option.ne_none_iff_exists'.1 hinstalled
      obtain ⟨l, hl⟩ := Option.ne_none_iff_exists'.1 hrequested
      rcases (Version.not_follows_iff i l).1 ((hread hi hl).1 h) with hlt | ⟨heq, build⟩
      · exact .lower hi hl hlt
      · exact .tied hi hl heq build

/-! ## Whoever refuses -/

/-- A plan that fails in other ways only. -/
def Plan.NeverRefuses {α : Type} (x : Plan α) : Prop :=
  ∀ s installed requested s', x.run s ≠ (.error (.downgradeOrEqual installed requested), s')

namespace Plan

variable {α β : Type}

theorem NeverRefuses.pure (a : α) : NeverRefuses (pure a : Plan α) := by
  intro s installed requested s' h
  cases h

theorem NeverRefuses.bind {x : Plan α} {f : α → Plan β} (hx : NeverRefuses x)
    (hf : ∀ a, NeverRefuses (f a)) : NeverRefuses (x >>= f) := by
  intro s installed requested s' h
  rcases hrun : x.run s with ⟨e | a, s₁⟩
  · rw [Run.bind_of_error hrun] at h
    obtain ⟨he, rfl⟩ := Prod.mk.inj h
    exact hx s installed requested s₁ (Except.error.inj he ▸ hrun)
  · rw [Run.bind_of_ok hrun] at h
    exact hf a s₁ installed requested s' h

/-- Lookups and calls fail with errors of repositories. -/
theorem isStepwise_neverRefuses (env : Surroundings) :
    IsStepwise env (fun e => ∀ installed requested, e ≠ .downgradeOrEqual installed requested)
      fun x => NeverRefuses x where
  repo e installed requested h := by cases h
  value := NeverRefuses.pure
  failure h s installed requested s' hrun := h installed requested (Except.error.inj (Prod.mk.inj hrun).1)
  sequel := NeverRefuses.bind
  countGet s installed requested s' h := by cases h
  forDefault s installed requested s' h := by cases h
  forName name s installed requested s' h := by cases h
  call ref op s installed requested s' h := by cases h

end Plan

namespace DependencyValidator

def NeverRefuses (validate : DependencyValidator) : Prop :=
  ∀ manifest version, (validate manifest version).NeverRefuses

/-- What a cluster refuses it refuses in other words. -/
theorem ofCluster_neverRefuses (env : Surroundings) {source : PackageSource}
    (answers : ∀ name installed requested,
      source.clusterPackage name ≠ .error (.downgradeOrEqual installed requested)) :
    (ofCluster env source).NeverRefuses :=
  ofCluster_stepwise (Plan.isStepwise_neverRefuses env) fun name _ he installed requested h =>
    answers name installed requested (h ▸ he)

end DependencyValidator

theorem PackageStore.clusterPackage_ne_refusal (s : PackageStore) (name installed requested : String) :
    s.toSource.clusterPackage name ≠ .error (.downgradeOrEqual installed requested) := by
  unfold toSource
  dsimp only
  cases s.clusterPackages.get? name <;> simp

namespace Transaction

variable {env : Surroundings} {validate : DependencyValidator}

/-- An entry without a version has a text that is none. -/
theorem Findings.mayFollow {s s' : PlanState} {ps : List InstalledPackage} {fs : List Finding}
    (h : Findings env validate s ps fs s') (isExplicit : Bool) :
    ∀ i ∈ (fs.foldl (take isExplicit) {}).entries, MayFollow i.package.desiredVersion i.version := by
  intro i hi
  obtain ⟨f, -, hp, ⟨hv, hnewer⟩ | ⟨-, hv, -⟩⟩ := (h.mem_entries_iff isExplicit i).1 hi
  · rw [hp, hv]
    exact mayFollow_of_isUpgradable hnewer
  · -- up to date in an explicit plan
    intro d l _ hl
    rw [hv, parse?_empty] at hl
    cases hl

/-- Whoever refuses the update of one package, the validator does so with the manifest at hand. -/
theorem refused_or_unvalidated {p : InstalledPackage} {version installed requested : String}
    {s s' : PlanState} (h : (prepareFor env validate p version).run s =
      (.error (.downgradeOrEqual installed requested), s')) :
    IsRefused p.desiredVersion version ∨
      ∃ repo s₁ manifest s₂,
        (Plan.onRepos (Clientset.forPackage env p)).run s = (.ok repo, s₁) ∧
        (Plan.onClient (Clientset.call repo fun c =>
          c.manifest env.web p.packageName version)).run s₁ = (.ok manifest, s₂) ∧
        (validate manifest version).run s₂ =
          (.error (.downgradeOrEqual installed requested), s') := by
  have hplanned := plannedFor env validate s p version
  rw [h] at hplanned
  cases hplanned with
  | refused older => exact .inl ((isRefused_iff _ _).2 older)
  | unvalidated newer lookup fetched failed =>
    exact .inr ⟨_, _, _, _, lookup, fetched, failed⟩

/-- No plan has an entry whose version is behind the one that its package wants. The update of one
package to a version that is not newer fails before anything is read; apart from that nobody but the
validator fails it so. -/
theorem plans_never_downgrade (env : Surroundings) (source : PackageSource)
    (validate : DependencyValidator) :
    (∀ (selections : List PackageSelection) (s s' : PlanState) (t : Transaction),
      (prepare env source validate selections).run s = (.ok t, s') →
      ∀ i ∈ t.entries, MayFollow i.package.desiredVersion i.version) ∧
    ∀ (p : InstalledPackage) (version : String),
      (∀ (s s' : PlanState) (t : Transaction),
        (prepareFor env validate p version).run s = (.ok t, s') →
        ∀ i ∈ t.entries, MayFollow i.package.desiredVersion i.version) ∧
      (IsRefused p.desiredVersion version → ∀ s, (prepareFor env validate p version).run s =
        (.error (.downgradeOrEqual p.desiredVersion version), s)) ∧
      (∀ (s s' : PlanState) (installed requested : String),
        (prepareFor env validate p version).run s =
          (.error (.downgradeOrEqual installed requested), s') →
        IsRefused p.desiredVersion version ∨
          ∃ repo s₁ manifest s₂,
            (Plan.onRepos (Clientset.forPackage env p)).run s = (.ok repo, s₁) ∧
            (Plan.onClient (Clientset.call repo fun c =>
              c.manifest env.web p.packageName version)).run s₁ = (.ok manifest, s₂) ∧
            (validate manifest version).run s₂ =
              (.error (.downgradeOrEqual installed requested), s')) ∧
      (validate.NeverRefuses → ∀ s, (∃ s', (prepareFor env validate p version).run s =
        (.error (.downgradeOrEqual p.desiredVersion version), s')) ↔
          IsRefused p.desiredVersion version) := by
  refine ⟨fun selections s s' t plan => ?_, fun p version => ?_⟩
  · obtain ⟨pss, fs, -, hfs, rfl⟩ := (prepare_eq_ok_iff _ _ _ _ _).1 plan
    exact hfs.mayFollow _
  have refuses (hrefused : IsRefused p.desiredVersion version) (s : PlanState) :
      (prepareFor env validate p version).run s =
        (.error (.downgradeOrEqual p.desiredVersion version), s) :=
    prepareFor_of_refused ((isRefused_iff _ _).1 hrefused) s
  refine ⟨fun s s' t plan i hi => ?_, refuses, fun s s' installed requested => refused_or_unvalidated,
    fun never s => ⟨fun ⟨s', hs'⟩ => ?_, fun hrefused => ⟨s, refuses hrefused s⟩⟩⟩
  · have hplanned := plannedFor env validate s p version
    rw [plan] at hplanned
    cases hplanned with
    | planned newer lookup fetched validated =>
      rw [entries_add, List.mem_singleton] at hi
      rw [hi]
      exact mayFollow_of_isUpgradable newer
  · refine (refused_or_unvalidated hs').resolve_right ?_
    rintro ⟨repo, s₁, manifest, s₂, -, -, failed⟩
    exact never manifest version s₂ _ _ s' failed

/-- A pre-release, and a build number that comes with a zero before it. -/
theorem plans_never_downgrade_prerelease :
    let env := surroundingsOf "packages:\n- name: a\n  latestVersion: 2.0.0-rc.1\n" "name: a\n"
    let a : InstalledPackage :=
      { kind := .clusterPackage, metadata := { name := "a" }
        spec := { packageInfo := { name := "a", version := "v2.0.0-beta+7" } } }
    let store := PackageStore.ofList [a]
    let validate : DependencyValidator := .ofCluster env store.toSource
    ∃ t s' u s'', (prepare env store.toSource validate [.allClusterPackages]).run {} = (.ok t, s') ∧
      t.entries = [⟨a, "2.0.0-rc.1"⟩] ∧ MayFollow a.desiredVersion "2.0.0-rc.1" ∧
      (prepareFor env validate a "2.0.0-beta+8").run s' = (.ok u, s'') ∧
      MayFollow a.desiredVersion "2.0.0-beta+8" ∧
      (∀ s s', (prepareFor env validate a "2.0.0-beta+8").run s ≠
        (.error (.downgradeOrEqual "v2.0.0-beta+7" "2.0.0-beta+8"), s')) ∧
      IsRefused a.desiredVersion "2-beta+07" ∧
      (prepareFor env validate a "2-beta+07").run s'' =
        (.error (.downgradeOrEqual "v2.0.0-beta+7" "2-beta+07"), s'') := by
  intro env a store validate
  have plan := Run.eq_ok_of_toOption
    (x := (prepare env store.toSource validate [.allClusterPackages]).run {})
    (a := { items := [⟨a, "2.0.0-rc.1"⟩] }) (by decide +kernel)
  have planFor := Run.eq_ok_of_toOption
    (x := (prepareFor env validate a "2.0.0-beta+8").run
      ((prepare env store.toSource validate [.allClusterPackages]).run {}).2)
    (a := { items := [⟨a, "2.0.0-beta+8"⟩] }) (by decide +kernel)
  obtain ⟨hplans, hone⟩ := plans_never_downgrade env store.toSource validate
  obtain ⟨hentries, -, -, hnever⟩ := hone a "2.0.0-beta+8"
  obtain ⟨-, hrefuses, -, -⟩ := hone a "2-beta+07"
  have hnewer : ¬ IsRefused a.desiredVersion "2.0.0-beta+8" := by
    rw [isRefused_iff]
    decide +kernel
  have hrefused : IsRefused a.desiredVersion "2-beta+07" :=
    (isRefused_iff _ _).2 (by decide +kernel)
  have never : validate.NeverRefuses :=
    DependencyValidator.ofCluster_neverRefuses env store.clusterPackage_ne_refusal
  refine ⟨_, _, _, _, plan, rfl, hplans _ _ _ _ plan ⟨a, _⟩ (by simp [entries]), planFor,
    hentries _ _ _ planFor ⟨a, _⟩ (by simp [entries]), fun s s' hs' => ?_, hrefused,
    hrefuses hrefused _⟩
  exact hnewer ((hnever never s).1 ⟨s', hs'⟩)

end Transaction
end ClusterPackages
