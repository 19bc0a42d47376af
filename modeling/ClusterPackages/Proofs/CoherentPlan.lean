import ClusterPackages.Proofs.Coherence
import ClusterPackages.Proofs.Planning

/-! Planning from coherent client sets. What planning reads of repositories depends on nothing that
was kept: validation against the cluster answers `validationOf`, and the version that a finding
shows is `latestOf`. -/

namespace ClusterPackages

open Clientset

/-! ## Plans that answer -/

namespace Plan

/-- A plan that gives this answer from every coherent client set, and leaves a coherent one. -/
def Answers {α : Type} (env : Surroundings) (who : List RepoClient) (x : Plan α)
    (answer : Except ClusterError α) : Prop :=
  ∀ s, Coherent env who s.repos →
    ∃ who', who <+: who' ∧ Coherent env who' (x.run s).2.repos ∧ (x.run s).1 = answer

variable {env : Surroundings} {who : List RepoClient} {α β : Type}

theorem Answers.ofPlain {x : Plan α} {answer : Except ClusterError α}
    (h : ∀ s, (x.run s).1 = answer ∧ (x.run s).2.repos = s.repos) : Answers env who x answer :=
  fun s hs => ⟨who, List.prefix_rfl, (h s).2 ▸ hs, (h s).1⟩

theorem Answers.pure (a : α) : Answers env who (pure a) (.ok a) := .ofPlain fun _ => ⟨rfl, rfl⟩

theorem Answers.throw (e : ClusterError) : Answers env who (throw e : Plan α) (.error e) :=
  .ofPlain fun _ => ⟨rfl, rfl⟩

theorem answers_countGet : Answers env who countGet (.ok ()) := .ofPlain fun _ => ⟨rfl, rfl⟩

theorem Answers.bind {x : Plan α} {f : α → Plan β} {answer : Except ClusterError α}
    {next : α → Except ClusterError β} (hx : Answers env who x answer)
    (hf : ∀ who' a, who <+: who' → Answers env who' (f a) (next a)) :
    Answers env who (x >>= f) (answer.bind next) := by
  intro s hs
  obtain ⟨who₁, hw₁, hs₁, hanswer⟩ := hx s hs
  rcases hrun : x.run s with ⟨e | a, s₁⟩
  · rw [hrun] at hs₁ hanswer
    rw [Run.bind_of_error hrun, ← hanswer]
    exact ⟨who₁, hw₁, hs₁, rfl⟩
  · rw [hrun] at hs₁ hanswer
    rw [Run.bind_of_ok hrun, ← hanswer]
    obtain ⟨who₂, hw₂, hs₂, hnext⟩ := hf who₁ a hw₁ s₁ hs₁
    exact ⟨who₂, hw₁.trans hw₂, hs₂, hnext⟩

/-- A lookup gives something that the rest may count on, whatever it is. -/
theorem Answers.afterLookup {x : Lookup α} {f : α → Plan β} {post : List RepoClient → α → Prop}
    {answer : Except ClusterError β} (hx : Yields env who x post)
    (hf : ∀ who' a, who <+: who' → post who' a → Answers env who' (f a) answer) :
    Answers env who (onRepos x >>= f) answer := by
  intro s hs
  obtain ⟨who₁, hw₁, hs₁, hpost⟩ := hx s.repos hs
  rw [Run.bind_of_ok (onRepos_run x s)]
  obtain ⟨who₂, hw₂, hs₂, hanswer⟩ := hf who₁ _ hw₁ hpost { s with repos := (x.run s.repos).2 } hs₁
  exact ⟨who₂, hw₁.trans hw₂, hs₂, hanswer⟩

theorem answers_onClient {ref : ClientRef} {c : Except RepoError RepoClient}
    (href : Refers who ref c) {op : RepoClient → Call α} {answer : RepoClient → Except RepoError α}
    (hop : ∀ d, RepoClient.Answers env.web d (op d) (answer d)) :
    Answers env who (onClient (call ref op)) ((c.bind answer).mapError .repo) := by
  intro s hs
  obtain ⟨who', hw, hs', hanswer, -⟩ := call_yields href hop s.repos hs
  rw [onClient_run, hanswer]
  exact ⟨who', hw, hs', rfl⟩

end Plan

/-! ## Validation against the cluster -/

namespace DependencyValidator

/-- The versions of a dependency that a client's repository offers. -/
def offered (env : Surroundings) (c : Except RepoError RepoClient) (name : String) :
    Except ClusterError (List String) :=
  match c.bind fun d => env.web.document d.auth VersionIndex.codec (d.versionIndexUrl name) with
  | .ok index => .ok (index.versions.map (·.version))
  | .error e =>
    if e.isNotFound then
      ((c.bind fun d => (d.served env.web).bind fun x =>
        .ok (((x.get? name).map (·.latestVersion)).getD "")).mapError .repo).bind fun latest =>
          .ok [latest]
    else .error (.repo e)

/-- What one dependency adds to the requirements or to the conflicts. -/
def checked (env : Surroundings) (source : PackageSource) (c : Except RepoError RepoClient)
    (d : Dependency) : Except ClusterError (Option Prerequisite × Option Conflict) :=
  match source.clusterPackage d.name with
  | .ok installed => .ok (none, installedConflict? d installed)
  | .error e =>
    if e.isNotFound then
      (offered env c d.name).bind fun versions =>
        match best? d.version versions with
        | some version => .ok (some { package := ⟨d.name, version⟩, isTransitive := false }, none)
        | none => .ok (none, some (unavailable d))
    else .error e

def validationOf (env : Surroundings) (source : PackageSource) (m : Manifest) :
    Except ClusterError Validation :=
  if m.dependencies.isEmpty then .ok {}
  else (m.dependencies.mapM (checked env source (clientNamed env ""))).bind fun findings =>
    .ok (.ofParts (findings.filterMap Prod.fst) (findings.filterMap Prod.snd))

variable {env : Surroundings} {who : List RepoClient} {source : PackageSource} {ref : ClientRef}
  {c : Except RepoError RepoClient}

theorem candidates_answers (href : Refers who ref c) (name : String) :
    Plan.Answers env who (candidates env ref name) (offered env c name) := by
  unfold candidates offered
  refine .afterLookup (call_yields href fun d => RepoClient.answers_versionIndex name)
    fun who₁ result hw₁ hresult => ?_
  obtain ⟨rfl, href₁⟩ := hresult
  cases c.bind fun d => env.web.document d.auth VersionIndex.codec (d.versionIndexUrl name) with
  | ok index => exact .pure _
  | error e =>
    simp only
    split_ifs
    · exact (Plan.answers_onClient href₁ fun d => RepoClient.answers_latestVersion name).bind
        fun _ latest _ => .pure _
    · exact .throw _

theorem check_answers (href : Refers who ref c) (d : Dependency) :
    Plan.Answers env who (check env source ref d) (checked env source c d) := by
  unfold check checked
  change Plan.Answers env who _ ((Except.ok ()).bind fun _ => _)
  refine Plan.answers_countGet.bind fun who₁ _ hw₁ => ?_
  cases source.clusterPackage d.name with
  | ok installed => exact .pure _
  | error e =>
    simp only
    split_ifs
    · unfold resolve
      rw [bind_assoc]
      refine (candidates_answers (href.mono hw₁) d.name).bind fun who₂ versions hw₂ => ?_
      rw [pure_bind]
      cases best? d.version versions with
      | some version => exact .pure _
      | none => exact .pure _
    · exact .throw _

theorem checkAll_answers (href : Refers who ref c) (ds : List Dependency) :
    Plan.Answers env who (checkAll env source ref ds) (ds.mapM (checked env source c)) := by
  induction ds generalizing who with
  | nil => exact .pure _
  | cons d ds ih =>
    rw [List.mapM_cons]
    refine (check_answers href d).bind fun who₁ finding hw₁ => ?_
    exact (ih (href.mono hw₁)).bind fun _ findings _ => .pure _

/-- What validation answers depends on what the cluster and the repositories hold, and on nothing
that was kept. -/
theorem ofCluster_answers (consistent : env.source.IsConsistent) (m : Manifest) (version : String) :
    Plan.Answers env who (ofCluster env source m version) (validationOf env source m) := by
  unfold ofCluster validationOf
  split_ifs
  · exact .pure _
  · refine .afterLookup (forDefault_yields consistent) fun who₁ ref hw₁ href => ?_
    exact (checkAll_answers href _).bind fun _ findings _ => .pure _

/-- A validator that leaves a coherent client set coherent. Validators reach client sets only by
lookups and calls. -/
def Respects (env : Surroundings) (validate : DependencyValidator) : Prop :=
  ∀ who m version s, Coherent env who s.repos →
    ∃ who', who <+: who' ∧ Coherent env who' ((validate m version).run s).2.repos

theorem ofCluster_respects (consistent : env.source.IsConsistent) (source : PackageSource) :
    Respects env (ofCluster env source) := by
  intro who m version s hs
  obtain ⟨who', hw, hs', -⟩ := ofCluster_answers consistent m version s hs
  exact ⟨who', hw, hs'⟩

end DependencyValidator

/-! ## Findings -/

namespace Transaction

/-- The version that the repository of a package shows as latest. -/
def latestOf (env : Surroundings) (p : InstalledPackage) : Option String :=
  ((clientNamed env p.repositoryName).bind fun c => c.served env.web).toOption.bind fun x =>
    (x.get? p.packageName).map (·.latestVersion)

/-- A finding that shows what the repository shows, and was validated exactly if that is newer. -/
structure Finding.IsCurrent (env : Surroundings) (f : Finding) : Prop where
  latest : latestOf env f.package = some f.latest
  newer : f.validation.isSome = isUpgradable f.package.desiredVersion f.latest

variable {env : Surroundings} {validate : DependencyValidator} {who : List RepoClient}
  {s s' : PlanState}

/-- The catalog that planning reads for a package is the one that its repository serves. -/
theorem read_coherent (consistent : env.source.IsConsistent) (hs : Coherent env who s.repos)
    {p : InstalledPackage} {repo : ClientRef} {s₁ s₂ : PlanState} {catalog : Catalog}
    (lookup : (Plan.onRepos (if p.repositoryName = "" then forDefault env
      else forName env p.repositoryName)).run s = (.ok repo, s₁))
    (read : (Plan.onClient (call repo (RepoClient.catalog env.web))).run s₁ = (.ok catalog, s₂)) :
    ∃ who', who <+: who' ∧ Coherent env who' s₂.repos ∧
      Refers who' repo (clientNamed env p.repositoryName) ∧
      (clientNamed env p.repositoryName).bind (fun c => c.served env.web) = .ok catalog := by
  rw [← forPackage_eq, Plan.onRepos_run] at lookup
  obtain ⟨who₁, hw₁, hs₁, href⟩ := forName_yields consistent p.repositoryName s.repos hs
  obtain ⟨hrepo, rfl⟩ := Prod.mk.inj lookup
  obtain rfl := Except.ok.inj hrepo
  rw [Plan.onClient_run] at read
  obtain ⟨who₂, hw₂, hs₂, hanswer, href₂⟩ :=
    call_yields href (fun d => RepoClient.answers_catalog) _ hs₁
  obtain ⟨hcatalog, rfl⟩ := Prod.mk.inj read
  refine ⟨who₂, hw₁.trans hw₂, hs₂, href₂, ?_⟩
  rw [← hanswer]
  exact Run.mapError_eq_ok_iff.1 hcatalog

theorem Found.isCurrent (consistent : env.source.IsConsistent) (respects : validate.Respects env)
    {p : InstalledPackage} {f : Finding} (h : Found env validate s p f s')
    (hs : Coherent env who s.repos) :
    f.package = p ∧ f.IsCurrent env ∧ ∃ who', who <+: who' ∧ Coherent env who' s'.repos := by
  cases h with
  | current lookup read first current =>
    obtain ⟨who₁, hw₁, hs₁, -, hserved⟩ := read_coherent consistent hs lookup read
    refine ⟨rfl, ⟨?_, current.symm⟩, who₁, hw₁, hs₁⟩
    simp [latestOf, hserved, Except.toOption, first]
  | newer lookup read first newer fetched validated =>
    obtain ⟨who₁, hw₁, hs₁, href, hserved⟩ := read_coherent consistent hs lookup read
    obtain ⟨who₂, hw₂, hs₂, -⟩ :=
      Plan.answers_onClient href (fun d => RepoClient.answers_manifest _ _) _ hs₁
    rw [fetched] at hs₂
    obtain ⟨who₃, hw₃, hs₃⟩ := respects who₂ _ _ _ hs₂
    rw [validated] at hs₃
    refine ⟨rfl, ⟨?_, newer.symm⟩, who₃, (hw₁.trans hw₂).trans hw₃, hs₃⟩
    simp [latestOf, hserved, Except.toOption, first]

theorem Findings.isCurrent (consistent : env.source.IsConsistent) (respects : validate.Respects env)
    {ps : List InstalledPackage} {fs : List Finding} (h : Findings env validate s ps fs s')
    (hs : Coherent env who s.repos) :
    fs.map Finding.package = ps ∧ (∀ f ∈ fs, f.IsCurrent env) ∧
      ∃ who', who <+: who' ∧ Coherent env who' s'.repos := by
  induction h generalizing who with
  | nil => exact ⟨rfl, by simp, who, List.prefix_rfl, hs⟩
  | cons head tail ih =>
    obtain ⟨hp, hf, who₁, hw₁, hs₁⟩ := head.isCurrent consistent respects hs
    obtain ⟨hps, hfs, who₂, hw₂, hs₂⟩ := ih hs₁
    exact ⟨congrArg₂ List.cons hp hps, List.forall_mem_cons.2 ⟨hf, hfs⟩, who₂, hw₁.trans hw₂, hs₂⟩

end Transaction
end ClusterPackages
