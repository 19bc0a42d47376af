import ClusterPackages.Proofs.Asking
import ClusterPackages.Proofs.Secrecy
import ClusterPackages.Proofs.Supply

/-! What counts as "not found". A client that cannot be built fails by its repository's
specification, and a request fails by its status, its media type, its body, or before it is
answered. Of all these only an answer with the status 404 says that a package is not there
(`outcome_isNotFound_iff`), so no other failure can be taken for an absence. -/

namespace ClusterPackages

/-! ## Building a client -/

namespace Authenticator

variable {α β : Type}

/-- A resolution that fails in one way only: who the client is cannot be made out. -/
def FailsAsAuth (scope : Scope) (x : Resolution α) : Prop :=
  ∀ secret e, (x.run.run secret).1 = .error e → ∃ cause, e = .authConfig scope.repository cause

theorem FailsAsAuth.pure (scope : Scope) (a : α) : FailsAsAuth scope (pure a : Resolution α) := by
  intro secret e h
  cases h

theorem FailsAsAuth.fail (scope : Scope) (cause : Cause) :
    FailsAsAuth scope (scope.fail cause : Resolution α) := by
  intro secret e h
  exact ⟨cause, (Except.error.inj h).symm⟩

theorem FailsAsAuth.bind {scope : Scope} {x : Resolution α} {f : α → Resolution β}
    (hx : FailsAsAuth scope x) (hf : ∀ a, FailsAsAuth scope (f a)) :
    FailsAsAuth scope (x >>= f) := by
  intro secret e h
  rw [Resolution.run_bind] at h
  cases hresult : (x.run.run secret).1 with
  | error e' =>
    rw [hresult] at h
    obtain rfl : e' = e := Except.error.inj h
    exact hx secret e' hresult
  | ok a =>
    rw [hresult] at h
    exact hf a secret e h

theorem secret_failsAsAuth (scope : Scope) (atHand : Option Secret) (name : String) :
    FailsAsAuth scope (Authenticator.secret scope atHand name) := by
  unfold Authenticator.secret
  cases atHand.filter (·.name == name) with
  | some s => exact .pure scope s
  | none =>
    -- what a read comes back with is a value, be it a failure
    have hread : FailsAsAuth scope (ExceptT.lift (.read name .done) : Resolution _) := by
      intro secret e h
      cases h
    refine hread.bind fun found => ?_
    cases found with
    | ok s => exact .pure scope s
    | error e => exact .fail scope _

theorem field_failsAsAuth (scope : Scope) (atHand : Option Secret) (name : String)
    (inline : Option String) (ref : Option SecretKeyRef) :
    FailsAsAuth scope (field scope atHand name inline ref) := by
  unfold field
  cases inline.filter (· != "") with
  | some value => exact .pure scope _
  | none =>
    cases ref with
    | none => exact .fail scope _
    | some ref =>
      refine (secret_failsAsAuth scope atHand ref.name).bind fun s => ?_
      cases s.text ref.key with
      | ok value => exact .pure scope _
      | error lack => exact .fail scope _

theorem resolveSpec_failsAsAuth (scope : Scope) (spec : AuthSpec) :
    FailsAsAuth scope (resolveSpec scope spec) := by
  unfold resolveSpec
  cases spec.basic with
  | some b =>
    cases spec.bearer with
    | some _ => exact .fail scope _
    | none =>
      refine (field_failsAsAuth scope none "username" _ _).bind fun user => ?_
      exact (field_failsAsAuth scope user.2 "password" _ _).bind fun pass => .pure scope _
  | none =>
    cases spec.bearer with
    | some b => exact (field_failsAsAuth scope none "token" _ _).bind fun token => .pure scope _
    | none => exact .pure scope _

theorem exists_of_resolve_eq_error {r : Repository} {secretNamespace : String}
    {secret : String → Except RepoError Secret} {e : RepoError}
    (h : ((resolve r secretNamespace).run secret).1 = .error e) :
    ∃ cause, e = .authConfig r.name cause := by
  unfold resolve at h
  cases hauth : r.spec.auth with
  | none =>
    rw [hauth] at h
    cases h
  | some spec =>
    rw [hauth] at h
    exact resolveSpec_failsAsAuth ⟨r.name, secretNamespace⟩ spec secret e h

end Authenticator

theorem RepoClient.exists_of_create_eq_error {url : String} {auth : Authenticator}
    {maxCacheAge : Duration} {e : RepoError} (h : RepoClient.create url auth maxCacheAge = .error e) :
    ∃ reason, e = .invalidUrl url reason := by
  unfold RepoClient.create at h
  cases hurl : Url.parse url with
  | error f =>
    rw [hurl] at h
    exact ⟨_, (Except.error.inj h).symm⟩
  | ok u =>
    rw [hurl] at h
    dsimp only at h
    split_ifs at h
    exact ⟨_, (Except.error.inj h).symm⟩

/-- A client that cannot be built fails by its credentials or by its address. -/
theorem Clientset.exists_of_clientOf_eq_error {env : Surroundings} {r : Repository} {e : RepoError}
    (h : clientOf env r = .error e) :
    (∃ cause, e = .authConfig r.name cause) ∨ ∃ reason, e = .invalidUrl r.spec.url reason := by
  unfold clientOf clientWith at h
  cases hauth : ((authPlan env r).run (secretOf env)).1 with
  | error e' =>
    rw [hauth] at h
    obtain rfl : e' = e := Except.error.inj h
    exact .inl (Authenticator.exists_of_resolve_eq_error hauth)
  | ok auth =>
    rw [hauth] at h
    exact .inr (RepoClient.exists_of_create_eq_error h)

/-! ## Asking for a document -/

namespace Web

variable {α : Type}

theorem exists_of_checkMediaType_eq_error {url : String} {header : Option Text.Bytes} {e : RepoError}
    (h : checkMediaType url header = .error e) :
    ∃ mediaType, e = .unacceptableMediaType url mediaType := by
  unfold checkMediaType at h
  split at h
  · cases h
  · exact ⟨_, (Except.error.inj h).symm⟩
  · split_ifs at h
    exact ⟨_, (Except.error.inj h).symm⟩

theorem exists_of_decodeDocument_eq_error {c : Codec α} {url : String} {body : Text.Bytes}
    {e : RepoError} (h : decodeDocument c url body = .error e) : ∃ cause, e = .decode url cause := by
  unfold decodeDocument at h
  cases hdecoded : Document.decodeBytes c body with
  | ok a =>
    rw [hdecoded] at h
    cases h
  | error f =>
    rw [hdecoded] at h
    exact ⟨_, (Except.error.inj h).symm⟩

/-- Of all that can be wrong with an answer only its status 404 says "not found". -/
theorem judge_isNotFound {c : Codec α} {url : String} {reply : Reply} {e : RepoError}
    (h : judge c url reply = .error e) (missing : e.isNotFound = true) : e = .status url 404 := by
  cases reply with
  | unreachable | closed =>
    rw [← Except.error.inj h] at missing
    cases missing
  | answer status contentType body =>
    unfold judge at h
    dsimp only at h
    split_ifs at h with hsuccess
    · obtain rfl := Except.error.inj h
      rw [beq_iff_eq.1 missing]
    · exfalso
      cases hmedia : checkMediaType url contentType with
      | error e' =>
        obtain ⟨mediaType, rfl⟩ := exists_of_checkMediaType_eq_error hmedia
        rw [hmedia] at h
        rw [← Except.error.inj h] at missing
        cases missing
      | ok _ =>
        rw [hmedia] at h
        cases body with
        | none =>
          rw [← Except.error.inj h] at missing
          cases missing
        | some bytes =>
          obtain ⟨cause, rfl⟩ := exists_of_decodeDocument_eq_error h
          cases missing

end Web

/-! ## Asking a repository -/

namespace Clientset

/-- A repository whose client cannot be built answers with what went wrong, and any other with its
document. -/
theorem outcome_versionIndex (env : Surroundings) (name : String) (s : Clientset) (r : Repository) :
    outcome env (fun c => c.versionIndex env.web name) s r =
      match ((forRepo env r).run s).1 with
      | .failing e => .error e
      | .built c =>
        env.web.document c.client.auth VersionIndex.codec (c.client.versionIndexUrl name) := by
  change ((call ((forRepo env r).run s).1 fun c => c.versionIndex env.web name).run
    ((forRepo env r).run s).2).1 = _
  rw [(versionIndex_run env _ name _).1]
  cases ((forRepo env r).run s).1 with
  | failing e => rw [supplyOf]
  | built c => rw [supplyOf]

theorem isNotFound_of_failing {env : Surroundings} {s : Clientset} {r : Repository} {e : RepoError}
    (h : ((forRepo env r).run s).1 = .failing e) : e.isNotFound = false := by
  rcases exists_of_clientOf_eq_error ((forRepo_eq_failing_iff env r s e).1 h).2 with
    ⟨cause, rfl⟩ | ⟨reason, rfl⟩
  · rfl
  · rfl

/-- A repository says that it lacks a package by the status 404 alone. -/
theorem outcome_isNotFound_iff {env : Surroundings} {name : String} {s : Clientset} {r : Repository}
    {e : RepoError} (h : outcome env (fun c => c.versionIndex env.web name) s r = .error e) :
    e.isNotFound = true ↔ ∃ url, e = .status url 404 := by
  constructor
  · intro missing
    rw [outcome_versionIndex] at h
    cases href : ((forRepo env r).run s).1 with
    | failing e' =>
      rw [href] at h
      obtain rfl : e' = e := Except.error.inj h
      rw [isNotFound_of_failing href] at missing
      cases missing
    | built c =>
      rw [href] at h
      exact ⟨_, Web.judge_isNotFound h missing⟩
  · rintro ⟨url, rfl⟩
    rfl

end Clientset
end ClusterPackages
