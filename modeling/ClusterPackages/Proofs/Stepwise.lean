import ClusterPackages.Proofs.Selection

/-! Properties that a plan has as soon as each of its steps has them. Planning looks up clients, calls
them and reads packages, one after the other, and does nothing else; so a property that passes from
steps to what they make up (`IsStepwise`) is a property of validating and of planning, and no proof of
one goes through them again. -/

namespace ClusterPackages

/-- A property of plans that passes on from their steps. Of the errors that end a plan it may ask that
they are admitted. -/
structure Plan.IsStepwise (env : Surroundings) (Admitted : ClusterError → Prop)
    (P : {α : Type} → Plan α → Prop) : Prop where
  repo (e : RepoError) : Admitted (.repo e)
  value {α : Type} (a : α) : P (pure a : Plan α)
  failure {α : Type} {e : ClusterError} (h : Admitted e) : P (throw e : Plan α)
  sequel {α β : Type} {x : Plan α} {f : α → Plan β} (hx : P x) (hf : ∀ a, P (f a)) : P (x >>= f)
  countGet : P Plan.countGet
  forDefault : P (Plan.onRepos (Clientset.forDefault env))
  forName (name : String) : P (Plan.onRepos (Clientset.forName env name))
  call {α : Type} (ref : ClientRef) (op : RepoClient → Call α) :
    P (Plan.onRepos (Clientset.call ref op))

variable {env : Surroundings} {Admitted : ClusterError → Prop} {P : {α : Type} → Plan α → Prop}

namespace Plan.IsStepwise

variable (h : IsStepwise env Admitted P)
include h

theorem onClient {α : Type} (ref : ClientRef) (op : RepoClient → Call α) :
    P (Plan.onClient (Clientset.call ref op)) := by
  refine h.sequel (h.call ref op) fun result => ?_
  cases result with
  | ok a => exact h.value a
  | error e => exact h.failure (h.repo e)

theorem answer {α : Type} {x : Except ClusterError α} (admitted : ∀ e, x = .error e → Admitted e) :
    P (Plan.answer x) := by
  cases x with
  | ok a => exact h.value a
  | error e => exact h.failure (admitted e rfl)

end Plan.IsStepwise

/-! ## Validating -/

namespace DependencyValidator

variable {source : PackageSource} (h : Plan.IsStepwise env Admitted P)
include h

theorem candidates_stepwise (ref : ClientRef) (name : String) : P (candidates env ref name) := by
  refine h.sequel (h.call ref _) fun result => ?_
  cases result with
  | ok index => exact h.value _
  | error e =>
    dsimp only
    split_ifs
    · exact h.sequel (h.onClient ref _) fun latest => h.value _
    · exact h.failure (h.repo e)

variable (answers : ∀ name e, source.clusterPackage name = .error e → Admitted e)
include answers

theorem check_stepwise (ref : ClientRef) (d : Dependency) : P (check env source ref d) := by
  refine h.sequel h.countGet fun _ => ?_
  cases found : source.clusterPackage d.name with
  | ok installed => exact h.value _
  | error e =>
    dsimp only
    split_ifs
    · refine h.sequel (h.sequel (candidates_stepwise h ref d.name) fun texts => h.value _) fun best => ?_
      cases best <;> exact h.value _
    · exact h.failure (answers d.name e found)

theorem checkAll_stepwise (ref : ClientRef) (ds : List Dependency) :
    P (checkAll env source ref ds) := by
  induction ds with
  | nil => exact h.value _
  | cons d ds ih =>
    refine h.sequel (check_stepwise h answers ref d) fun finding => ?_
    exact h.sequel ih fun findings => h.value _

theorem ofCluster_stepwise (m : Manifest) (version : String) :
    P (ofCluster env source m version) := by
  unfold ofCluster
  split_ifs
  · exact h.value _
  · refine h.sequel h.forDefault fun ref => ?_
    exact h.sequel (checkAll_stepwise h answers ref _) fun findings => h.value _

end DependencyValidator

/-! ## Planning -/

namespace Transaction

variable {validate : DependencyValidator} (h : Plan.IsStepwise env Admitted P)
  (validates : ∀ m version, P (validate m version))
include h validates

theorem addPackage_stepwise
    (unlisted : ∀ name repository, Admitted (.packageNotFoundInIndex name repository))
    (isExplicit : Bool) (t : Transaction) (p : InstalledPackage) :
    P (addPackage env validate isExplicit t p) := by
  refine h.sequel (h.forName p.repositoryName) fun ref => ?_
  refine h.sequel (h.onClient ref _) fun catalog => ?_
  cases catalog.get? p.packageName with
  | none => exact h.failure (unlisted _ _)
  | some entry =>
    dsimp only
    split_ifs
    · refine h.sequel (h.onClient ref _) fun manifest => ?_
      exact h.sequel (validates manifest _) fun v => h.value _
    · exact h.value _
    · exact h.value _

theorem addPackages_stepwise
    (unlisted : ∀ name repository, Admitted (.packageNotFoundInIndex name repository))
    (isExplicit : Bool) (t : Transaction) (ps : List InstalledPackage) :
    P (addPackages env validate isExplicit t ps) := by
  induction ps generalizing t with
  | nil => exact h.value _
  | cons p ps ih =>
    exact h.sequel (addPackage_stepwise h validates unlisted isExplicit t p) fun t => ih t

theorem prepareFor_stepwise
    (refused : ∀ installed requested, Admitted (.downgradeOrEqual installed requested))
    (p : InstalledPackage) (version : String) : P (prepareFor env validate p version) := by
  unfold prepareFor
  split_ifs
  · exact h.failure (refused _ _)
  · refine h.sequel (h.forName p.repositoryName) fun ref => ?_
    refine h.sequel (h.onClient ref _) fun manifest => ?_
    exact h.sequel (validates manifest version) fun v => h.value _

end Transaction
end ClusterPackages
