import ClusterPackages.Proofs.Coherence

/-! Secrets do not show. Two secrets have the same outline if they differ in nothing but what they
hold (`Secret.SameOutline`). Resolving who a client is, once with the one and once with the other,
takes the same steps: as many reads, and the same error or the same kind of authenticator. So an
error that stands in for a client says nothing of them either. -/

namespace ClusterPackages

/-- Both fail with the same error, or both end well with results that are related. -/
inductive EndAlike {ε α : Type} (R : α → α → Prop) : Except ε α → Except ε α → Prop
  | ok {a b : α} (h : R a b) : EndAlike R (.ok a) (.ok b)
  | error (e : ε) : EndAlike R (.error e) (.error e)

theorem EndAlike.cases {ε α : Type} {R : α → α → Prop} {x y : Except ε α} (h : EndAlike R x y) :
    (∃ a b, x = .ok a ∧ y = .ok b ∧ R a b) ∨ ∃ e, x = .error e ∧ y = .error e := by
  cases h with
  | ok h => exact .inl ⟨_, _, rfl, rfl, h⟩
  | error e => exact .inr ⟨e, rfl, rfl⟩

/-! ## Secrets -/

namespace Secret

/-- Secrets of one name with the same keys, under the same of which bytes are text. -/
structure SameOutline (s s' : Secret) : Prop where
  name : s.name = s'.name
  data : ∀ key, (s.data.bind (TextMap.get? key)).map (fun bytes => (Text.decodeUtf8 bytes).toBool) =
    (s'.data.bind (TextMap.get? key)).map fun bytes => (Text.decodeUtf8 bytes).toBool
  stringData : ∀ key, (s.stringData.bind (TextMap.get? key)).isSome =
    (s'.stringData.bind (TextMap.get? key)).isSome

/-- Whether there is a text under a key, and why not, is all in the outline. -/
theorem SameOutline.text {s s' : Secret} (h : s.SameOutline s') (key : String) :
    EndAlike (fun _ _ => True) (s.text key) (s'.text key) := by
  have hdata := h.data key
  have hstring := h.stringData key
  unfold Secret.text
  rcases hb : s.data.bind (TextMap.get? key) with _ | bytes <;>
    rcases hb' : s'.data.bind (TextMap.get? key) with _ | bytes' <;>
    simp only [hb, hb', Option.map_some, Option.map_none, Option.some.injEq, reduceCtorEq] at hdata
  · rcases hv : s.stringData.bind (TextMap.get? key) with _ | v <;>
      rcases hv' : s'.stringData.bind (TextMap.get? key) with _ | v' <;> rw [hv, hv'] at hstring
    · exact .error _
    · cases hstring
    · cases hstring
    · exact .ok trivial
  · dsimp only
    rcases hd : Text.decodeUtf8 bytes with _ | cs <;>
      rcases hd' : Text.decodeUtf8 bytes' with _ | cs' <;> rw [hd, hd'] at hdata
    · exact .error _
    · cases hdata
    · cases hdata
    · exact .ok trivial

end Secret

/-! ## Two runs of a plan -/

theorem SecretPlan.run_bind {α β : Type} (secret : String → Except RepoError Secret)
    (x : SecretPlan α) (f : α → SecretPlan β) :
    (x.bind f).run secret =
      (((f (x.run secret).1).run secret).1, (x.run secret).2 + ((f (x.run secret).1).run secret).2) := by
  induction x with
  | done a => simp [SecretPlan.bind, SecretPlan.run]
  | read name next ih =>
    simp only [SecretPlan.bind, SecretPlan.run, ih]
    rw [Nat.add_right_comm]

namespace Authenticator

variable {secret secret' : String → Except RepoError Secret} {α β : Type}

theorem Resolution.run_bind (x : Resolution α) (f : α → Resolution β) :
    (x >>= f).run.run secret =
      (((ExceptT.bindCont f (x.run.run secret).1).run secret).1,
        (x.run.run secret).2 + ((ExceptT.bindCont f (x.run.run secret).1).run secret).2) :=
  SecretPlan.run_bind secret x.run (ExceptT.bindCont f)

/-- With the one secrets and with the other, as many reads and ends that are alike. -/
structure Agree (secret secret' : String → Except RepoError Secret) (R : α → α → Prop)
    (x y : Resolution α) : Prop where
  ends : EndAlike R (x.run.run secret).1 (y.run.run secret').1
  reads : (x.run.run secret).2 = (y.run.run secret').2

theorem Agree.pure {R : α → α → Prop} {a b : α} (h : R a b) :
    Agree secret secret' R (pure a) (pure b) := ⟨.ok h, rfl⟩

theorem Agree.fail {R : α → α → Prop} (scope : Scope) (reason : Cause) :
    Agree secret secret' R (scope.fail reason) (scope.fail reason) := ⟨.error _, rfl⟩

theorem Agree.bind {R : α → α → Prop} {Q : β → β → Prop} {x y : Resolution α}
    {f g : α → Resolution β} (hx : Agree secret secret' R x y)
    (hf : ∀ a b, R a b → Agree secret secret' Q (f a) (g b)) :
    Agree secret secret' Q (x >>= f) (y >>= g) := by
  have hnext {a b : Except RepoError α} (hends : EndAlike R a b) :
      Agree secret secret' Q (.mk (ExceptT.bindCont f a)) (.mk (ExceptT.bindCont g b)) := by
    cases hends with
    | error e => exact ⟨.error e, rfl⟩
    | ok h => exact hf _ _ h
  obtain ⟨hends, hreads⟩ := hnext hx.ends
  constructor
  · rw [Resolution.run_bind, Resolution.run_bind]
    exact hends
  · rw [Resolution.run_bind, Resolution.run_bind, hx.reads]
    exact congrArg ((y.run.run secret').2 + ·) hreads

/-! ## Resolving -/

theorem agree_secret (alike : ∀ name, EndAlike Secret.SameOutline (secret name) (secret' name))
    (scope : Scope) {atHand atHand' : Option Secret} (h : Option.Rel Secret.SameOutline atHand atHand')
    (name : String) :
    Agree secret secret' Secret.SameOutline (Authenticator.secret scope atHand name)
      (Authenticator.secret scope atHand' name) := by
  have hread : Agree secret secret' Secret.SameOutline (Authenticator.secret scope none name)
      (Authenticator.secret scope none name) := by
    have hread : Agree secret secret' (EndAlike Secret.SameOutline)
        (ExceptT.lift (.read name .done)) (ExceptT.lift (.read name .done)) :=
      ⟨.ok (alike name), rfl⟩
    refine hread.bind fun found found' hfound => ?_
    cases hfound with
    | ok h => exact .pure h
    | error e => exact .fail scope _
  cases h with
  | none => exact hread
  | @some s s' h =>
    unfold Authenticator.secret
    rw [Option.filter_some, Option.filter_some, h.name]
    cases s'.name == name with
    | true => exact .pure h
    | false => exact hread

/-- What one field resolves to may differ, and nothing else. -/
theorem agree_field (alike : ∀ name, EndAlike Secret.SameOutline (secret name) (secret' name))
    (scope : Scope) {atHand atHand' : Option Secret} (h : Option.Rel Secret.SameOutline atHand atHand')
    (name : String) (inline : Option String) (ref : Option SecretKeyRef) :
    Agree secret secret' (fun a b => Option.Rel Secret.SameOutline a.2 b.2)
      (field scope atHand name inline ref) (field scope atHand' name inline ref) := by
  unfold field
  cases inline.filter (· != "") with
  | some value => exact .pure h
  | none =>
    cases ref with
    | none => exact .fail scope _
    | some ref =>
      refine (agree_secret alike scope h ref.name).bind fun s s' hs => ?_
      rcases (hs.text ref.key).cases with ⟨v, v', hv, hv', -⟩ | ⟨lack, hv, hv'⟩
      · rw [hv, hv']
        exact .pure (.some hs)
      · rw [hv, hv']
        exact .fail scope _

/-- Authenticators that differ in their names and passwords at most. -/
inductive SameKind : Authenticator → Authenticator → Prop
  | anonymous : SameKind .anonymous .anonymous
  | basic (username password username' password' : String) :
      SameKind (.basic username password) (.basic username' password')
  | bearer (token token' : String) : SameKind (.bearer token) (.bearer token')

theorem agree_resolveSpec (alike : ∀ name, EndAlike Secret.SameOutline (secret name) (secret' name))
    (scope : Scope) (spec : AuthSpec) :
    Agree secret secret' SameKind (resolveSpec scope spec) (resolveSpec scope spec) := by
  unfold resolveSpec
  cases spec.basic with
  | some b =>
    cases spec.bearer with
    | some _ => exact .fail scope _
    | none =>
      refine (agree_field alike scope .none "username" _ _).bind fun user user' hatHand => ?_
      refine (agree_field alike scope hatHand "password" _ _).bind fun pass pass' _ => ?_
      exact .pure (.basic _ _ _ _)
  | none =>
    cases spec.bearer with
    | some b =>
      refine (agree_field alike scope .none "token" _ _).bind fun token token' _ => ?_
      exact .pure (.bearer _ _)
    | none => exact .pure .anonymous

theorem agree_resolve (alike : ∀ name, EndAlike Secret.SameOutline (secret name) (secret' name))
    (r : Repository) (secretNamespace : String) :
    Agree secret secret' SameKind (.mk (resolve r secretNamespace))
      (.mk (resolve r secretNamespace)) := by
  unfold resolve
  cases r.spec.auth with
  | none => exact .pure .anonymous
  | some spec => exact agree_resolveSpec alike _ spec

/-- Who an authenticator says it is. -/
def username? : Authenticator → Option String
  | basic username _ => some username
  | anonymous | bearer _ => none

theorem SameKind.shown_eq {a b : Authenticator} (h : a.SameKind b) (hname : a.username? = b.username?) :
    a.shown = b.shown := by
  cases h with
  | anonymous => rfl
  | basic username password username' password' =>
    obtain rfl : username = username' := Option.some.inj hname
    rfl
  | bearer token token' => rfl

end Authenticator

/-! ## Secrets in memory -/

namespace Inventory

theorem secret_putSecret (i : Inventory) (s : Secret) (name ns : String) :
    (i.putSecret s).secret name ns =
      if ns = s.metadata.namespace.getD "" ∧ name = s.name then .ok s else i.secret name ns := by
  unfold putSecret secret
  simp only [TextMap.get?_insert]
  by_cases hns : ns = s.metadata.namespace.getD ""
  · subst hns
    by_cases hname : name = s.name
    · simp [hname, TextMap.get?_insert]
    · cases hinside : i.secrets.get? (s.metadata.namespace.getD "") with
      | none => simp [hname, TextMap.get?_insert]; rfl
      | some inside => simp [hname, TextMap.get?_insert]
  · simp [hns]

/-- One more secret on either side leaves secrets alike, if the two have one outline. -/
theorem alike_putSecret {i i' : Inventory}
    (h : ∀ name ns, EndAlike Secret.SameOutline (i.secret name ns) (i'.secret name ns)) {s s' : Secret}
    (hs : s.SameOutline s') (hns : s.metadata.namespace = s'.metadata.namespace) (name ns : String) :
    EndAlike Secret.SameOutline ((i.putSecret s).secret name ns) ((i'.putSecret s').secret name ns) := by
  rw [secret_putSecret, secret_putSecret, hns, hs.name]
  split_ifs
  · exact .ok hs
  · exact h name ns

end Inventory

/-! ## Clients -/

/-- The same surroundings with other secrets. -/
def Surroundings.withSecrets (env : Surroundings)
    (secret : (name «namespace» : String) → Except RepoError Secret) : Surroundings :=
  { env with source := { env.source with secret } }

namespace Clientset

/-- A stand-in is what is found if there is no client at hand and none can be built. -/
theorem forRepo_eq_failing_iff (env : Surroundings) (r : Repository) (s : Clientset) (e : RepoError) :
    ((forRepo env r).run s).1 = .failing e ↔ s.clientFor r = none ∧ clientOf env r = .error e := by
  rw [forRepo_run]
  cases s.clientFor r with
  | some c => simp
  | none => cases hc : clientOf env r <;> simp [takenIn]

/-- What is wrong with an address is wrong for everyone. -/
theorem create_eq_error {url : String} {auth : Authenticator} {maxCacheAge : Duration} {e : RepoError}
    (h : RepoClient.create url auth maxCacheAge = .error e) (auth' : Authenticator) :
    RepoClient.create url auth' maxCacheAge = .error e := by
  unfold RepoClient.create at h ⊢
  cases hurl : Url.parse url with
  | error f =>
    rw [hurl] at h
    exact h
  | ok u =>
    rw [hurl] at h
    dsimp only at h ⊢
    split_ifs at h ⊢
    exact h

/-- Building a client fails alike with the one secrets and with the other. -/
theorem clientOf_withSecrets_eq_error {env : Surroundings}
    {secret' : (name «namespace» : String) → Except RepoError Secret}
    (alike : ∀ name ns, EndAlike Secret.SameOutline (env.source.secret name ns) (secret' name ns))
    {r : Repository} {e : RepoError} (h : clientOf env r = .error e) :
    clientOf (env.withSecrets secret') r = .error e := by
  have found : ∀ name, EndAlike Secret.SameOutline (secretOf env name)
      (secretOf (env.withSecrets secret') name) := fun name => alike name _
  have hends := (Authenticator.agree_resolve found r env.settings.secretNamespace).ends
  change EndAlike _ ((authPlan env r).run (secretOf env)).1
    ((authPlan env r).run (secretOf (env.withSecrets secret'))).1 at hends
  change clientWith env r ((authPlan env r).run (secretOf (env.withSecrets secret'))).1 = .error e
  unfold clientOf at h
  rcases hends.cases with ⟨a, a', ha, ha', -⟩ | ⟨e', ha, ha'⟩
  · rw [ha] at h
    rw [ha']
    exact create_eq_error h a'
  · rw [ha] at h
    rw [ha']
    exact h

/-- With secrets that differ in nothing but what they hold, resolving who a client is takes as many
reads, and fails with the same error or ends with an authenticator of the same kind, which is shown
alike under one username. So what stands in for a client gives the same error, too. -/
theorem secrets_never_show (env : Surroundings)
    (secret' : (name «namespace» : String) → Except RepoError Secret)
    (alike : ∀ name ns, EndAlike Secret.SameOutline (env.source.secret name ns) (secret' name ns))
    (r : Repository) :
    let env' := env.withSecrets secret'
    let plan := Authenticator.resolve r env.settings.secretNamespace
    let found := plan.run (secretOf env)
    let found' := plan.run (secretOf env')
    found.2 = found'.2 ∧
    EndAlike (fun a a' => a.SameKind a' ∧ (a.username? = a'.username? → a.shown = a'.shown))
      found.1 found'.1 ∧
    ∀ (s s' : Clientset) (e : RepoError),
      ((forRepo env r).run s).1 = .failing e → s'.clientFor r = none →
        ((forRepo env' r).run s').1 = .failing e ∧
        ∀ {α : Type} (op : RepoClient → Call α) (t : Clientset),
          (call ((forRepo env r).run s).1 op).run t = (.error e, t) ∧
          (call ((forRepo env' r).run s').1 op).run t = (.error e, t) := by
  intro env' plan found found'
  have alike' : ∀ name, EndAlike Secret.SameOutline (secretOf env name) (secretOf env' name) :=
    fun name => alike name _
  have hagree := Authenticator.agree_resolve alike' r env.settings.secretNamespace
  refine ⟨hagree.reads, ?_, fun s s' e hfailing hnone => ?_⟩
  · rcases hagree.ends.cases with ⟨a, a', ha, ha', hkind⟩ | ⟨e, ha, ha'⟩
    · change found.1 = _ at ha
      change found'.1 = _ at ha'
      rw [ha, ha']
      exact .ok ⟨hkind, hkind.shown_eq⟩
    · change found.1 = _ at ha
      change found'.1 = _ at ha'
      rw [ha, ha']
      exact .error e
  · have hfailing' : ((forRepo env' r).run s').1 = .failing e :=
      (forRepo_eq_failing_iff env' r s' e).2
        ⟨hnone, clientOf_withSecrets_eq_error alike ((forRepo_eq_failing_iff env r s e).1 hfailing).2⟩
    refine ⟨hfailing', fun op t => ?_⟩
    rw [hfailing, hfailing']
    exact ⟨rfl, rfl⟩

/-- The username is there and the password is no text, whatever they are. -/
theorem secrets_never_show_unreadable :
    let credentials (user : String) (password : Text.Bytes) : Secret :=
      { metadata := { name := "creds", «namespace» := "skiff-system" }
        data := some [("pass", password), ("user", Text.encode user.toList)] }
    let basic : BasicAuth :=
      { usernameSecretRef := some ⟨"creds", "user"⟩, passwordSecretRef := some ⟨"creds", "pass"⟩ }
    let r : Repository :=
      { metadata := { name := "private" }
        spec := { url := "http://h", auth := some { basic := some basic } } }
    let inventory (user : String) (password : Text.Bytes) : Inventory :=
      ({} : Inventory).putSecret (credentials user password)
    let env : Surroundings :=
      { settings := {}, source := (inventory "admin" [0xFF]).toSource, web := fun _ => .unreachable }
    let env' := env.withSecrets (inventory "root" [0xC3, 0x28]).secret
    let plan := Authenticator.resolve r "skiff-system"
    let e : RepoError := .authConfig "private" (.words "secret creds has a non UTF-8 value for key pass")
    (∀ name ns, EndAlike Secret.SameOutline (env.source.secret name ns) (env'.source.secret name ns)) ∧
    plan.run (secretOf env) = (.error e, 1) ∧ plan.run (secretOf env') = (.error e, 1) ∧
    ((forRepo env r).run {}).1 = .failing e ∧ ((forRepo env' r).run {}).1 = .failing e := by
  intro credentials basic r inventory env env' plan e
  have outline : (credentials "admin" [0xFF]).SameOutline (credentials "root" [0xC3, 0x28]) := by
    refine ⟨rfl, fun key => ?_, fun key => rfl⟩
    simp only [credentials, Option.bind_some, TextMap.get?_cons]
    split_ifs
    · decide +kernel
    · decide +kernel
    · rfl
  have alike : ∀ name ns, EndAlike Secret.SameOutline (env.source.secret name ns)
      (env'.source.secret name ns) :=
    Inventory.alike_putSecret (fun _ _ => .error _) outline rfl
  have hrun : plan.run (secretOf env) = (.error e, 1) := rfl
  have hfailing : ((forRepo env r).run {}).1 = .failing e := rfl
  obtain ⟨reads, ends, deferred⟩ :=
    secrets_never_show env (inventory "root" [0xC3, 0x28]).secret alike r
  have hrun' : plan.run (secretOf env') = (.error e, 1) := by
    rcases ends.cases with ⟨a, a', ha, -⟩ | ⟨e', he, he'⟩
    · cases ha
    · obtain rfl : e = e' := Except.error.inj he
      exact Prod.ext he' reads.symm
  exact ⟨alike, hrun, hrun', hfailing, (deferred {} {} e hfailing rfl).1⟩

end Clientset
end ClusterPackages
