import ClusterPackages.Proofs.Asking

/-! Nothing that is kept shows. From a coherent client set each operation gives the answer that it
gives afresh and leaves a coherent client set, so this holds all through a session. How long
catalogs and clients are trusted makes no difference: what is given afresh asks for neither. -/

namespace ClusterPackages

open Clientset

/-! ## Calls -/

namespace RepoClient

variable {web : Web} {c : RepoClient} {α β : Type}

/-- A call that goes on whether the one before it failed or not. -/
theorem Answers.attempt {x : Call α} {f : Except RepoError α → Call β}
    {answer : Except RepoError α} {next : Except RepoError β} (hx : Answers web c x answer)
    (hf : Answers web c (f answer) next) : Answers web c (ExceptT.lift x.run >>= f) next := by
  intro t ht
  obtain ⟨hanswer, hkeeps⟩ := hx t ht
  rw [Run.bind_of_ok (Run.lift_run_eq x t), hanswer]
  exact hf _ hkeeps

theorem answers_latestManifest (name : String) :
    Answers web c (c.latestManifest web name) ((Method.latestManifest name).afresh web c) := by
  unfold latestManifest
  refine (answers_versionIndex name).attempt ?_
  dsimp only [Method.afresh]
  cases web.document c.auth VersionIndex.codec (c.versionIndexUrl name) with
  | ok index => exact (answers_manifest name _).bind fun _ _ => .pure _
  | error e =>
    dsimp only
    split_ifs
    · exact (answers_fetch _ _ _).bind fun _ _ => .pure _
    · exact fun _ ht => ⟨rfl, ht⟩

/-- Each call answers what it answers afresh. -/
theorem Method.answers (m : Method α) : Answers web c (m.run web c) (m.afresh web c) := by
  cases m with
  | catalog => exact answers_catalog
  | versionIndex name => exact answers_versionIndex name
  | manifest name version => exact answers_manifest name version
  | latestManifest name => exact answers_latestManifest name
  | latestVersion name => exact answers_latestVersion name
  | manifestUrl name version => exact .pure _

end RepoClient

/-! ## Lookups -/

section

variable {env : Surroundings} {who : List RepoClient} {α β : Type}

theorem Clientset.Yields.map {x : Lookup α} {f : α → β} {post : List RepoClient → α → Prop}
    {post' : List RepoClient → β → Prop} (hx : Yields env who x post)
    (hf : ∀ who' a, post who' a → post' who' (f a)) : Yields env who (f <$> x) post' := by
  intro s hs
  obtain ⟨who', hw, hs', hpost⟩ := hx s hs
  exact ⟨who', hw, hs', hf who' _ hpost⟩

namespace Aggregate

/-- Asking repositories one after the other gives what each answers afresh. -/
theorem askAll_yields (m : RepoClient.Method α) {rs : List Repository}
    (hrs : ∀ r ∈ rs, env.source.repository r.name = .ok r) :
    Yields env who (askAll env (fun c => m.run env.web c) rs) fun _ answers =>
      answers = rs.map fun r => (r, (clientOf env r).bind fun c => m.afresh env.web c) := by
  induction rs generalizing who with
  | nil => exact .pure rfl
  | cons r rs ih =>
    obtain ⟨hr, hrs⟩ := List.forall_mem_cons.1 hrs
    refine (forRepo_yields hr).bind fun who₁ ref _ href => ?_
    refine (call_yields href fun d => m.answers).bind fun who₂ answer _ hanswer => ?_
    refine (ih hrs).bind fun who₃ answers _ hanswers => .pure ?_
    rw [hanswer.1, hanswers, List.map_cons]

variable (consistent : env.source.IsConsistent)
include consistent

theorem ask_yields {order : List Repository → List Repository} (horder : ∀ rs, (order rs).Perm rs)
    (m : RepoClient.Method α) :
    Yields env who (ask env order fun c => m.run env.web c) fun _ answers =>
      answers = askAfresh env order m := by
  unfold ask askAfresh
  refine listRepositories_yields.bind fun who₁ rs _ hrs => ?_
  rw [hrs]
  cases hlist : env.source.repositories with
  | error e => exact .pure rfl
  | ok rs =>
    refine (askAll_yields m fun r hr => ?_).map fun _ _ hanswers => congrArg Except.ok hanswers
    exact consistent.listed rs r hlist (((horder _).trans (byName_perm rs)).subset hr)

end Aggregate

theorem ClientChoice.find_yields (consistent : env.source.IsConsistent) (choice : ClientChoice) :
    Yields env who (choice.find env) fun who' ref =>
      Refers who' ref (clientNamed env choice.name) := by
  cases choice with
  | named name => exact forName_yields consistent name
  | default => exact forDefault_yields consistent
  | ofPackage p => exact forName_yields consistent p.repositoryName

end

/-! ## Plans -/

namespace Plan

variable {env : Surroundings} {who : List RepoClient} {α β : Type}

theorem answers_answer (x : Except ClusterError α) : Answers env who (answer x) x :=
  .ofPlain fun _ => ⟨rfl, rfl⟩

theorem Answers.map {x : Plan α} {answer : Except ClusterError α} (hx : Answers env who x answer)
    (f : α → β) : Answers env who (f <$> x) (answer.map f) := by
  rw [map_eq_pure_bind]
  have hbind : Answers env who (x >>= Pure.pure ∘ f) (answer.bind (Except.ok ∘ f)) :=
    hx.bind fun _ a _ => .pure (f a)
  cases answer <;> exact hbind

theorem Answers.mapM {f : α → Plan β} {g : α → Except ClusterError β}
    (h : ∀ who' a, who <+: who' → Answers env who' (f a) (g a)) (xs : List α) :
    Answers env who (xs.mapM f) (xs.mapM g) := by
  induction xs generalizing who with
  | nil => exact .pure _
  | cons x xs ih =>
    rw [List.mapM_cons, List.mapM_cons]
    refine (h who x List.prefix_rfl).bind fun who₁ b hw₁ => ?_
    exact (ih fun who₂ a hw₂ => h who₂ a (hw₁.trans hw₂)).bind fun _ _ _ => .pure _

end Plan

theorem Validator.answers {env : Surroundings} (consistent : env.source.IsConsistent)
    (packages : PackageSource) (v : Validator) (who : List RepoClient) (m : Manifest)
    (version : String) :
    Plan.Answers env who (v.validate env packages m version) (v.judge env packages m version) := by
  cases v with
  | cluster => exact DependencyValidator.ofCluster_answers consistent m version
  | rules judge => exact Plan.answers_answer _

namespace Transaction

variable {env : Surroundings} {who : List RepoClient} {validate : DependencyValidator}
  {judge : Manifest → String → Except ClusterError Validation}
  (consistent : env.source.IsConsistent)
  (hjudge : ∀ who m version, Plan.Answers env who (validate m version) (judge m version))

include consistent hjudge

theorem lookAt_answers (p : InstalledPackage) :
    Plan.Answers env who (lookAt env validate p) (lookedAt env judge p) := by
  unfold lookAt lookedAt
  refine .afterLookup (forName_yields consistent p.repositoryName) fun who₁ repo _ href => ?_
  refine Plan.Answers.bind ?_ fun who₂ catalog hw₂ => ?_
  · exact Plan.answers_onClient href fun d => RepoClient.answers_catalog
  cases catalog.get? p.packageName with
  | none => exact .throw _
  | some entry =>
    simp only
    split_ifs
    · refine Plan.Answers.bind ?_ fun who₃ manifest _ => ?_
      · exact Plan.answers_onClient (href.mono hw₂) fun d => RepoClient.answers_manifest _ _
      exact (hjudge who₃ manifest entry.latestVersion).bind fun _ _ _ => .pure _
    · exact .pure _

theorem prepare_answers (packages : PackageSource) (selections : List PackageSelection) :
    Plan.Answers env who (prepare env packages validate selections)
      (prepared env packages judge selections) := by
  intro s hs
  rw [prepare_run]
  have hplan : Plan.Answers env who
      (Plan.answer (selected (selections.map (PackageSelection.resolved packages))) >>=
        addPackages env validate (selections.any PackageSelection.isExplicit) {})
      (prepared env packages judge selections) := by
    refine (Plan.answers_answer _).bind fun who₁ ps _ => ?_
    rw [addPackages_eq]
    have hlooked : Plan.Answers env who₁ (ps.mapM (lookAt env validate))
        (ps.mapM (lookedAt env judge)) :=
      .mapM (fun _ p _ => lookAt_answers consistent hjudge p) ps
    have hmap := hlooked.map fun fs =>
      fs.foldl (take (selections.any PackageSelection.isExplicit)) {}
    cases hfs : ps.mapM (lookedAt env judge) with
    | _ => exact hfs ▸ hmap
  exact hplan _ ((PackageSelection.getAll_run packages selections s).2 ▸ hs)

theorem prepareFor_answers (p : InstalledPackage) (version : String) :
    Plan.Answers env who (prepareFor env validate p version) (preparedFor env judge p version) := by
  unfold prepareFor preparedFor
  cases isUpgradable p.desiredVersion version with
  | false => exact .throw _
  | true =>
    refine .afterLookup (forName_yields consistent p.repositoryName) fun who₁ repo _ href => ?_
    refine Plan.Answers.bind ?_ fun who₂ manifest _ => ?_
    · exact Plan.answers_onClient href fun d => RepoClient.answers_manifest _ _
    exact (hjudge who₂ manifest version).bind fun _ _ _ => .pure _

end Transaction

/-! ## Settings -/

/-- The same surroundings, in which catalogs and clients are trusted for so long. -/
def Surroundings.trusting (env : Surroundings) (maxCacheAge clientCheckInterval : Duration) :
    Surroundings :=
  { env with settings := { env.settings with maxCacheAge, clientCheckInterval } }

section

variable (env : Surroundings) (age interval : Duration) {α : Type}

theorem RepoClient.Method.afresh_trusting (web : Web) (c : RepoClient) (m : Method α) :
    m.afresh web { c with maxCacheAge := age } = m.afresh web c := by
  set d : RepoClient := { c with maxCacheAge := age }
  have hurl : d.urlOf = c.urlOf := rfl
  cases m with
  | latestManifest name =>
    have hindex : d.versionIndexUrl = c.versionIndexUrl := rfl
    have hmanifest : d.manifestUrl = c.manifestUrl := rfl
    have hversionless : d.versionlessManifestUrl = c.versionlessManifestUrl := rfl
    dsimp only [afresh]
    rw [hindex, hmanifest, hversionless]
  | latestVersion name =>
    dsimp only [afresh, served, catalogUrl]
    rw [hurl]
  | catalog => rfl
  | versionIndex name => rfl
  | manifest name version => rfl
  | manifestUrl name version => rfl

namespace Clientset

theorem clientOf_trusting (r : Repository) :
    clientOf (env.trusting age interval) r =
      (clientOf env r).map fun c => { c with maxCacheAge := age } := by
  change clientWith (env.trusting age interval) r ((authPlan env r).run (secretOf env)).1 =
    (clientWith env r ((authPlan env r).run (secretOf env)).1).map _
  cases ((authPlan env r).run (secretOf env)).1 with
  | error e => rfl
  | ok auth =>
    change RepoClient.create r.spec.url auth age =
      (RepoClient.create r.spec.url auth env.settings.maxCacheAge).map _
    unfold RepoClient.create
    cases Url.parse r.spec.url with
    | error f => rfl
    | ok u =>
      dsimp only
      split_ifs <;> rfl

/-- What does not ask a client how long it trusts catalogs is the same for all settings. -/
theorem bind_clientOf_trusting (r : Repository) {f : RepoClient → Except RepoError α}
    (hf : ∀ c : RepoClient, f { c with maxCacheAge := age } = f c) :
    (clientOf (env.trusting age interval) r).bind f = (clientOf env r).bind f := by
  rw [clientOf_trusting]
  cases clientOf env r with
  | error e => rfl
  | ok c => exact hf c

theorem bind_clientNamed_trusting (name : String) {f : RepoClient → Except RepoError α}
    (hf : ∀ c : RepoClient, f { c with maxCacheAge := age } = f c) :
    (clientNamed (env.trusting age interval) name).bind f = (clientNamed env name).bind f := by
  unfold clientNamed
  change ((repositoryNamed env name).bind _).bind f = _
  cases repositoryNamed env name with
  | error e => rfl
  | ok r => exact bind_clientOf_trusting env age interval r hf

theorem callAfresh_trusting (name : String) (m : RepoClient.Method α) :
    callAfresh (env.trusting age interval) name m = callAfresh env name m := by
  exact bind_clientNamed_trusting env age interval name fun c => m.afresh_trusting age env.web c

end Clientset

theorem Aggregate.askAfresh_trusting (order : List Repository → List Repository)
    (m : RepoClient.Method α) :
    askAfresh (env.trusting age interval) order m = askAfresh env order m := by
  unfold askAfresh
  have hanswer (r : Repository) :
      ((clientOf (env.trusting age interval) r).bind fun c => m.afresh env.web c) =
        (clientOf env r).bind fun c => m.afresh env.web c :=
    bind_clientOf_trusting env age interval r fun c => m.afresh_trusting age env.web c
  simp only [Surroundings.trusting] at hanswer ⊢
  simp only [hanswer]

namespace DependencyValidator

theorem offered_trusting (name dependency : String) :
    offered (env.trusting age interval) (clientNamed (env.trusting age interval) name) dependency =
      offered env (clientNamed env name) dependency := by
  unfold offered
  rw [bind_clientNamed_trusting env age interval name fun c => rfl,
    bind_clientNamed_trusting env age interval name fun c => rfl]
  rfl

theorem validationOf_trusting (packages : PackageSource) (m : Manifest) :
    validationOf (env.trusting age interval) packages m = validationOf env packages m := by
  have hchecked :
      checked (env.trusting age interval) packages (clientNamed (env.trusting age interval) "") =
        checked env packages (clientNamed env "") := by
    funext d
    unfold checked
    simp only [offered_trusting]
  unfold validationOf
  rw [hchecked]

end DependencyValidator

theorem Validator.judge_trusting (packages : PackageSource) (v : Validator) :
    v.judge (env.trusting age interval) packages = v.judge env packages := by
  cases v with
  | cluster =>
    funext m _
    exact DependencyValidator.validationOf_trusting env age interval packages m
  | rules judge => rfl

namespace Transaction

variable (judge : Manifest → String → Except ClusterError Validation)

theorem lookedAt_trusting :
    lookedAt (env.trusting age interval) judge = lookedAt env judge := by
  funext p
  unfold lookedAt
  simp only [callAfresh_trusting]

theorem prepared_trusting (packages : PackageSource) (selections : List PackageSelection) :
    prepared (env.trusting age interval) packages judge selections =
      prepared env packages judge selections := by
  unfold prepared
  rw [lookedAt_trusting]

theorem preparedFor_trusting (p : InstalledPackage) (version : String) :
    preparedFor (env.trusting age interval) judge p version = preparedFor env judge p version := by
  unfold preparedFor
  simp only [callAfresh_trusting]

end Transaction

theorem Operation.afresh_trusting (packages : PackageSource) (op : Operation α) :
    op.afresh (env.trusting age interval) packages = op.afresh env packages := by
  cases op with
  | onClient choice m => exact callAfresh_trusting env age interval choice.name m
  | mergedCatalog =>
    exact congrArg (Except.map Aggregate.merge) (Aggregate.askAfresh_trusting env age interval _ _)
  | latestVersion name =>
    exact congrArg (Except.bind · (Aggregate.newest name))
      (Aggregate.askAfresh_trusting env age interval _ _)
  | repositoriesOffering name =>
    exact congrArg (Except.bind · (Aggregate.offering name))
      (Aggregate.askAfresh_trusting env age interval _ _)
  | validate v m version => exact congrFun₂ (v.judge_trusting env age interval packages) m version
  | prepare v selections =>
    dsimp only [afresh]
    rw [v.judge_trusting env age interval packages, Transaction.prepared_trusting]
  | prepareFor v p version =>
    dsimp only [afresh]
    rw [v.judge_trusting env age interval packages, Transaction.preparedFor_trusting]

end

/-! ## Sessions -/

section

variable {env : Surroundings} {who : List RepoClient} {α : Type}

theorem Plan.lookup_answers {x : Lookup α} {a : α} (hx : Yields env who x fun _ b => b = a)
    (s : PlanState) (hs : Coherent env who s.repos) :
    ∃ who', who <+: who' ∧ Coherent env who' ((Plan.lookup x).run s).2.repos ∧
      ((Plan.lookup x).run s).1 = a :=
  hx s.repos hs

/-- From a coherent client set an operation gives the answer that it gives afresh. -/
theorem Operation.answers (consistent : env.source.IsConsistent) (packages : PackageSource)
    (op : Operation α) (s : PlanState) (hs : Coherent env who s.repos) :
    ∃ who', who <+: who' ∧ Coherent env who' ((op.run env packages).run s).2.repos ∧
      ((op.run env packages).run s).1 = op.afresh env packages := by
  cases op with
  | onClient choice m =>
    refine Plan.lookup_answers ?_ s hs
    refine (choice.find_yields consistent).bind fun who₁ ref _ href => ?_
    intro t ht
    obtain ⟨who₂, hw₂, ht₂, hanswer, -⟩ := call_yields href (fun d => m.answers) t ht
    exact ⟨who₂, hw₂, ht₂, hanswer⟩
  | mergedCatalog =>
    exact Plan.lookup_answers
      ((Aggregate.ask_yields consistent List.reverse_perm .catalog).bind
        fun _ _ _ h => .pure (congrArg _ h)) s hs
  | latestVersion name =>
    exact Plan.lookup_answers
      ((Aggregate.ask_yields consistent .refl (.versionIndex name)).bind
        fun _ _ _ h => .pure (congrArg (Except.bind · (Aggregate.newest name)) h)) s hs
  | repositoriesOffering name =>
    exact Plan.lookup_answers
      ((Aggregate.ask_yields consistent .refl .catalog).bind
        fun _ _ _ h => .pure (congrArg (Except.bind · (Aggregate.offering name)) h)) s hs
  | validate v m version => exact v.answers consistent packages who m version s hs
  | prepare v selections =>
    exact Transaction.prepare_answers consistent (v.answers consistent packages) packages selections
      s hs
  | prepareFor v p version =>
    exact Transaction.prepareFor_answers consistent (v.answers consistent packages) p version s hs

namespace Session

theorem step_coherent (consistent : env.source.IsConsistent) (s : Session) (x : Step)
    (hs : Coherent env who s.plan.repos) :
    ∃ who', who <+: who' ∧ Coherent env who' (s.step env x).plan.repos := by
  cases x with
  | write packages => exact ⟨who, List.prefix_rfl, hs⟩
  | ask op =>
    obtain ⟨who', hw, hs', -⟩ := op.answers consistent s.packages s.plan hs
    exact ⟨who', hw, hs'⟩

theorem steps_coherent (consistent : env.source.IsConsistent) (s : Session) (xs : List Step)
    (hs : Coherent env who s.plan.repos) :
    ∃ who', who <+: who' ∧ Coherent env who' (s.steps env xs).plan.repos := by
  induction xs generalizing s who with
  | nil => exact ⟨who, List.prefix_rfl, hs⟩
  | cons x xs ih =>
    obtain ⟨who₁, hw₁, hs₁⟩ := step_coherent consistent s x hs
    obtain ⟨who₂, hw₂, hs₂⟩ := ih (s.step env x) hs₁
    exact ⟨who₂, hw₁.trans hw₂, hs₂⟩

end Session

end

namespace Session

theorem answer_eq_afresh (env : Surroundings) (consistent : env.source.IsConsistent)
    (age interval : Duration) (packages : PackageSource) (xs : List Step) {α : Type}
    (op : Operation α) :
    let s := steps (env.trusting age interval) { packages } xs
    s.answer (env.trusting age interval) op = op.afresh env s.packages := by
  intro s
  have htrusting : (env.trusting age interval).source.IsConsistent := consistent
  obtain ⟨who, -, hs⟩ := steps_coherent htrusting { packages } xs (coherent_empty _)
  obtain ⟨-, -, -, hanswer⟩ := op.answers htrusting s.packages s.plan hs
  exact hanswer.trans (op.afresh_trusting env age interval s.packages)

/-- What is kept never shows. Whatever the settings and whatever was asked and written before, an
operation gives the answer that it gives afresh; so it is the same after any other session that
ends with the same packages, under any other settings. -/
theorem keeping_never_shows (env : Surroundings) (consistent : env.source.IsConsistent)
    (age interval : Duration) (packages : PackageSource) (xs : List Step) {α : Type}
    (op : Operation α) :
    let s := steps (env.trusting age interval) { packages } xs
    s.answer (env.trusting age interval) op = op.afresh env s.packages ∧
    ∀ (age' interval' : Duration) (packages' : PackageSource) (ys : List Step),
      let t := steps (env.trusting age' interval') { packages := packages' } ys
      t.packages = s.packages →
        t.answer (env.trusting age' interval') op = s.answer (env.trusting age interval) op := by
  intro s
  have hs := answer_eq_afresh env consistent age interval packages xs op
  refine ⟨hs, ?_⟩
  intro age' interval' packages' ys t ht
  have ht' := answer_eq_afresh env consistent age' interval' packages' ys op
  exact ht'.trans ((congrArg (op.afresh env) ht).trans hs.symm)

/-- A version is the one served, read after one write or from a catalog that was kept since before
others were made. -/
theorem keeping_never_shows_latestVersion :
    let web : Web := fun url =>
      .answer 200 none (some (Text.encode
        (if url = "http://h/index.yaml" then "packages:\n- name: a\n  latestVersion: 2.0.0\n"
        else "name: a\n").toList))
    let r : Repository :=
      Repository.setDefault true { metadata := { name := "main" }, spec := { url := "http://h" } }
    let env : Surroundings :=
      { settings := {}, source := (Inventory.putRepository {} r).toSource, web }
    let a : InstalledPackage :=
      { kind := .clusterPackage, metadata := { name := "a" }
        spec := { packageInfo := { name := "a", version := "1.0.0" } } }
    let packages : PackageSource := (PackageStore.ofList [a]).toSource
    let read (age : Duration) (xs : List Step) : Except RepoError String :=
      (steps (env.trusting age age) { packages } xs).answer (env.trusting age age)
        (.onClient (.named "main") (.latestVersion "a"))
    let long := [.ask .mergedCatalog, .write (PackageStore.ofList []).toSource,
      .ask (.prepare .cluster [.allClusterPackages]), .write packages]
    (read (.ofSeconds 0) [.write packages]).toOption = some "2.0.0" ∧
      read (.ofSeconds 60) long = read (.ofSeconds 0) [.write packages] := by
  intro web r env a packages read long
  have consistent : env.source.IsConsistent :=
    (Inventory.wellKeyed_empty.putRepository r).isConsistent
  obtain ⟨hafresh, hsame⟩ := keeping_never_shows env consistent (.ofSeconds 0) (.ofSeconds 0)
    packages [.write packages] (.onClient (.named "main") (.latestVersion "a"))
  have hpackages : (steps (env.trusting (.ofSeconds 60) (.ofSeconds 60)) { packages }
      long).packages = packages := rfl
  refine ⟨?_, hsame (.ofSeconds 60) (.ofSeconds 60) packages long hpackages⟩
  have hread : read (.ofSeconds 0) [.write packages] = _ := hafresh
  rw [hread]
  decide +kernel

end Session
end ClusterPackages
