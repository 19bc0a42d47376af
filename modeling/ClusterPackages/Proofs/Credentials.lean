import ClusterPackages.Proofs.Absence

/-! Where credentials come from. A field of an authentication block is its own text, or the text that
its reference leads to, or an error (`IsCredential`); who a client is depends on nothing else. A secret
that was just read is not read again, and that does not show: it is what another read would give. -/

namespace ClusterPackages

/-! ## Secrets that are read -/

namespace SecretPlan

variable {α β : Type} (secret : String → Except RepoError Secret)

/-- The names of the secrets that a plan reads, in order. -/
def reads : SecretPlan α → List String
  | done _ => []
  | read name next => name :: reads (next (secret name))

theorem run_snd (x : SecretPlan α) : (x.run secret).2 = (x.reads secret).length := by
  induction x with
  | done a => rfl
  | read name next ih =>
    rw [reads, List.length_cons, ← ih]
    rfl

theorem reads_bind (x : SecretPlan α) (f : α → SecretPlan β) :
    (x.bind f).reads secret = x.reads secret ++ (f (x.run secret).1).reads secret := by
  induction x with
  | done a => rfl
  | read name next ih => exact congrArg (name :: ·) (ih (secret name))

end SecretPlan

/-- What a secret has under a key: bytes that spell a text, or else a text, unless one of these is
wrong or neither is there. -/
inductive Secret.IsTextAt (s : Secret) (key : String) : Except Secret.Lack String → Prop
  | bytes {bs : Text.Bytes} {cs : List Char} (held : s.data.bind (TextMap.get? key) = some bs)
      (spells : Text.decodeUtf8 bs = .ok cs) : IsTextAt s key (.ok (String.ofList cs))
  | text {value : String} (noBytes : s.data.bind (TextMap.get? key) = none)
      (held : s.stringData.bind (TextMap.get? key) = some value) : IsTextAt s key (.ok value)
  | notText {bs : Text.Bytes} {fault : Text.EncodingFault}
      (held : s.data.bind (TextMap.get? key) = some bs)
      (spellsNone : Text.decodeUtf8 bs = .error fault) : IsTextAt s key (.error .notText)
  | noKey (noBytes : s.data.bind (TextMap.get? key) = none)
      (noText : s.stringData.bind (TextMap.get? key) = none) : IsTextAt s key (.error .noKey)

theorem Secret.isTextAt_text (s : Secret) (key : String) : s.IsTextAt key (s.text key) := by
  unfold Secret.text
  cases held : s.data.bind (TextMap.get? key) with
  | some bs =>
    dsimp only
    cases spells : Text.decodeUtf8 bs with
    | ok cs => exact .bytes held spells
    | error fault => exact .notText held spells
  | none =>
    dsimp only
    cases text : s.stringData.bind (TextMap.get? key) with
    | some value => exact .text held text
    | none => exact .noKey held text

theorem Secret.IsTextAt.eq_text {s : Secret} {key : String} {x : Except Secret.Lack String}
    (h : s.IsTextAt key x) : x = s.text key := by
  unfold Secret.text
  cases h with
  | bytes held spells => simp only [held, spells]
  | text noBytes held => rw [noBytes, held]
  | notText held spellsNone => simp only [held, spellsNone]
  | noKey noBytes noText => rw [noBytes, noText]

namespace Authenticator

variable {α β : Type} {secret : String → Except RepoError Secret}

/-- How a resolution ends, and the secrets that it reads. -/
structure EndsWith (secret : String → Except RepoError Secret) (x : Resolution α)
    (result : Except RepoError α) (reads : List String) : Prop where
  result : (x.run.run secret).1 = result
  reads : x.run.reads secret = reads

theorem EndsWith.pure (a : α) : EndsWith secret (pure a) (.ok a) [] := ⟨rfl, rfl⟩

theorem EndsWith.fail (scope : Scope) (cause : Cause) :
    EndsWith secret (scope.fail cause : Resolution α) (.error (.authConfig scope.repository cause)) [] :=
  ⟨rfl, rfl⟩

theorem EndsWith.bind {x : Resolution α} {f : α → Resolution β} {a : α} {result : Except RepoError β}
    {reads reads' : List String} (hx : EndsWith secret x (.ok a) reads)
    (hf : EndsWith secret (f a) result reads') :
    EndsWith secret (x >>= f) result (reads ++ reads') := by
  constructor
  · rw [Resolution.run_bind, hx.result]
    exact hf.result
  · change (x.run.bind (ExceptT.bindCont f)).reads secret = _
    rw [SecretPlan.reads_bind, hx.result, hx.reads]
    exact congrArg (reads ++ ·) hf.reads

theorem EndsWith.bind_error {x : Resolution α} {e : RepoError} {reads : List String}
    (hx : EndsWith secret x (.error e) reads) (f : α → Resolution β) :
    EndsWith secret (x >>= f) (.error e) reads := by
  constructor
  · rw [Resolution.run_bind, hx.result]
    rfl
  · change (x.run.bind (ExceptT.bindCont f)).reads secret = _
    rw [SecretPlan.reads_bind, hx.result, hx.reads]
    exact List.append_nil reads

/-! ## One field -/

/-- What a field stands for: its own text, or else what the secret that it refers to has under the key;
or what is wrong, as an error of the repository's. -/
inductive IsCredential (secret : String → Except RepoError Secret) (scope : Scope) (name : String)
    (inline : Option String) (ref : Option SecretKeyRef) : Except RepoError String → Prop
  | own {value : String} (given : inline = some value) (nonempty : value ≠ "") :
      IsCredential secret scope name inline ref (.ok value)
  | referred {k : SecretKeyRef} {s : Secret} {held : Except Secret.Lack String}
      (unset : inline.getD "" = "") (refers : ref = some k) (found : secret k.name = .ok s)
      (holds : s.IsTextAt k.key held) :
      IsCredential secret scope name inline ref (held.mapError fun lack =>
        .authConfig scope.repository (.words ("secret " ++ k.name ++ " " ++ lack.message k.key)))
  | nowhere (unset : inline.getD "" = "") (refers : ref = none) :
      IsCredential secret scope name inline ref (.error (.authConfig scope.repository
        (.words (name ++ " is neither set nor referenced from a secret"))))
  | unread {k : SecretKeyRef} {e : RepoError}
      (unset : inline.getD "" = "") (refers : ref = some k) (failed : secret k.name = .error e) :
      IsCredential secret scope name inline ref (.error (.authConfig scope.repository
        (scope.unreadable k.name e)))

/-- A field stands for one thing only. -/
theorem IsCredential.unique {scope : Scope} {name : String} {inline : Option String}
    {ref : Option SecretKeyRef} {x y : Except RepoError String}
    (hx : IsCredential secret scope name inline ref x)
    (hy : IsCredential secret scope name inline ref y) : x = y := by
  cases hx <;> cases hy
  case referred.referred k s held _ refers found holds k' s' held' _ refers' found' holds' =>
    obtain rfl := Option.some.inj (refers.symm.trans refers')
    obtain rfl := Except.ok.inj (found.symm.trans found')
    rw [holds.eq_text, holds'.eq_text]
  all_goals grind

/-- The secret that a field needs: the one that it refers to, unless it has a text of its own. -/
def neededBy (inline : Option String) (ref : Option SecretKeyRef) : List String :=
  if inline.getD "" = "" then ref.toList.map (·.name) else []

theorem filter_ne_empty_eq_none_iff {inline : Option String} :
    inline.filter (· != "") = none ↔ inline.getD "" = "" := by
  cases inline <;> simp [Option.filter]

theorem filter_ne_empty_eq_some_iff {inline : Option String} {value : String} :
    inline.filter (· != "") = some value ↔ inline = some value ∧ value ≠ "" := by
  simp [Option.filter_eq_some_iff]

/-- A secret at hand is the one that another read would give. -/
def IsAtHand (secret : String → Except RepoError Secret) (atHand : Option Secret) : Prop :=
  ∀ s, atHand = some s → secret s.name = .ok s

/-- Of the secrets that are needed, those that are not at hand. -/
def missing (atHand : Option Secret) (needed : List String) : List String :=
  needed.filter (· ∉ atHand.toList.map Secret.name)

theorem missing_none (needed : List String) : missing none needed = needed := by
  simp [missing]

section

variable {atHand : Option Secret} (hatHand : IsAtHand secret atHand) (scope : Scope)
include hatHand

/-- A secret is read unless it is at hand. -/
theorem secret_endsWith (n : String) :
    EndsWith secret (Authenticator.secret scope atHand n)
      ((secret n).mapError fun e => .authConfig scope.repository (scope.unreadable n e))
      (missing atHand [n]) := by
  have hread : EndsWith secret (Authenticator.secret scope none n)
      ((secret n).mapError fun e => .authConfig scope.repository (scope.unreadable n e)) [n] := by
    have hlift : EndsWith secret (ExceptT.lift (.read n .done)) (.ok (secret n)) [n] := ⟨rfl, rfl⟩
    refine hlift.bind (?_ : EndsWith secret _ _ [])
    cases secret n with
    | ok s => exact .pure s
    | error e => exact .fail scope _
  cases atHand with
  | none =>
    rw [missing_none]
    exact hread
  | some s =>
    unfold Authenticator.secret at hread ⊢
    by_cases hname : s.name = n
    · subst hname
      have hmissing : missing (some s) [s.name] = [] := by simp [missing]
      rw [hatHand s rfl, hmissing, Option.filter_some, beq_self_eq_true]
      exact .pure s
    · have hmissing : missing (some s) [n] = [n] := by simp [missing, Ne.symm hname]
      rw [hmissing, Option.filter_some, beq_false_of_ne hname]
      exact hread

/-- A field comes to what it stands for, whatever is at hand; and afterwards what it needed is. -/
theorem field_endsWith (name : String) (inline : Option String) (ref : Option SecretKeyRef) :
    (∃ e, IsCredential secret scope name inline ref (.error e) ∧
      EndsWith secret (field scope atHand name inline ref) (.error e)
        (missing atHand (neededBy inline ref))) ∨
    ∃ value next, IsCredential secret scope name inline ref (.ok value) ∧
      EndsWith secret (field scope atHand name inline ref) (.ok (value, next))
        (missing atHand (neededBy inline ref)) ∧
      (neededBy inline ref = [] ∧ next = atHand ∨
        ∃ n s, neededBy inline ref = [n] ∧ secret n = .ok s ∧ next = some s) := by
  unfold field
  cases hinline : inline.filter (· != "") with
  | some value =>
    obtain ⟨given, nonempty⟩ := filter_ne_empty_eq_some_iff.1 hinline
    have hneeded : neededBy inline ref = [] := by simp [neededBy, given, nonempty]
    rw [hneeded]
    exact .inr ⟨value, atHand, .own given nonempty, .pure _, .inl ⟨rfl, rfl⟩⟩
  | none =>
    have unset := filter_ne_empty_eq_none_iff.1 hinline
    cases ref with
    | none =>
      have hneeded : neededBy inline none = [] := if_pos unset
      rw [hneeded]
      exact .inl ⟨_, .nowhere unset rfl, .fail scope _⟩
    | some k =>
      have hneeded : neededBy inline (some k) = [k.name] := if_pos unset
      have hsecret := secret_endsWith hatHand scope k.name
      rw [hneeded]
      cases found : secret k.name with
      | error e =>
        rw [found] at hsecret
        exact .inl ⟨_, .unread unset rfl found, hsecret.bind_error _⟩
      | ok s =>
        rw [found] at hsecret
        have htext := s.isTextAt_text k.key
        rw [← List.append_nil (missing atHand [k.name])]
        cases hresult : s.text k.key with
        | error lack =>
          rw [hresult] at htext
          refine .inl ⟨_, .referred unset rfl found htext, hsecret.bind ?_⟩
          rw [hresult]
          exact .fail scope _
        | ok value =>
          rw [hresult] at htext
          refine .inr ⟨value, some s, .referred unset rfl found htext, hsecret.bind ?_,
            .inr ⟨k.name, s, rfl, found, rfl⟩⟩
          rw [hresult]
          exact .pure _

end

/-- What a field comes to if it is resolved by itself, with a read of its own. -/
def alone (secret : String → Except RepoError Secret) (scope : Scope) (name : String)
    (inline : Option String) (ref : Option SecretKeyRef) : Except RepoError String :=
  ((field scope none name inline ref).run.run secret).1.map Prod.fst

theorem isAtHand_none (secret : String → Except RepoError Secret) : IsAtHand secret none :=
  fun _ h => (by cases h)

theorem isCredential_alone (secret : String → Except RepoError Secret) (scope : Scope) (name : String)
    (inline : Option String) (ref : Option SecretKeyRef) :
    IsCredential secret scope name inline ref (alone secret scope name inline ref) := by
  unfold alone
  rcases field_endsWith (isAtHand_none secret) scope name inline ref with
    ⟨e, he, hends⟩ | ⟨value, next, hvalue, hends, -⟩
  · rw [hends.result]
    exact he
  · rw [hends.result]
    exact hvalue

/-- Whatever is at hand, a field comes to what it comes to by itself. -/
theorem IsCredential.alone_eq {scope : Scope} {name : String} {inline : Option String}
    {ref : Option SecretKeyRef} {x : Except RepoError String}
    (h : IsCredential secret scope name inline ref x) : alone secret scope name inline ref = x :=
  (isCredential_alone secret scope name inline ref).unique h

/-! ## Both fields -/

/-- The authenticator of fields that are resolved by themselves. -/
def basicOf (user pass : Except RepoError String) : Except RepoError Authenticator := do
  return .basic (← user) (← pass)

/-- The password is looked for only if there is a username, and its secret is read only if the
username did not come from it. -/
def basicReads (user : Except RepoError String) (forUser forPass : List String) : List String :=
  match user with
  | .ok _ => forUser ++ forPass.filter (· ∉ forUser)
  | .error _ => forUser

theorem basic_endsWith (named : ∀ n s, secret n = .ok s → s.name = n) (scope : Scope) {spec : AuthSpec}
    {b : BasicAuth} (basic : spec.basic = some b) (noBearer : spec.bearer = none) :
    let user := alone secret scope "username" b.username b.usernameSecretRef
    let pass := alone secret scope "password" b.password b.passwordSecretRef
    EndsWith secret (resolveSpec scope spec) (basicOf user pass)
      (basicReads user (neededBy b.username b.usernameSecretRef)
        (neededBy b.password b.passwordSecretRef)) := by
  unfold resolveSpec
  rw [basic, noBearer]
  rcases field_endsWith (isAtHand_none secret) scope "username" b.username b.usernameSecretRef with
    ⟨e, he, huser⟩ | ⟨user, next, hcredential, huser, hnext⟩
  · rw [IsCredential.alone_eq he]
    rw [missing_none] at huser
    exact huser.bind_error _
  rw [IsCredential.alone_eq hcredential]
  rw [missing_none] at huser
  -- the username leaves its secret at hand, under the name that the password may refer to
  have hatHand : IsAtHand secret next ∧
      next.toList.map Secret.name = neededBy b.username b.usernameSecretRef := by
    rcases hnext with ⟨hneeded, rfl⟩ | ⟨n, s, hneeded, found, rfl⟩
    · exact ⟨isAtHand_none secret, hneeded.symm⟩
    · refine ⟨fun s' hs' => ?_, ?_⟩
      · obtain rfl := Option.some.inj hs'
        rw [named n s found, found]
      · simp [hneeded, named n s found]
  refine huser.bind ?_
  dsimp only
  rw [← hatHand.2]
  rcases field_endsWith hatHand.1 scope "password" b.password b.passwordSecretRef with
    ⟨e, he, hpass⟩ | ⟨pass, _, hcredential', hpass, -⟩
  · rw [IsCredential.alone_eq he]
    exact hpass.bind_error _
  · rw [IsCredential.alone_eq hcredential', ← List.append_nil (List.filter _ _)]
    exact hpass.bind (.pure _)

/-! ## The block -/

theorem bearer_endsWith (scope : Scope) {spec : AuthSpec} {b : BearerAuth} (noBasic : spec.basic = none)
    (bearer : spec.bearer = some b) :
    EndsWith secret (resolveSpec scope spec)
      ((alone secret scope "token" b.token b.tokenSecretRef).map .bearer)
      (neededBy b.token b.tokenSecretRef) := by
  unfold resolveSpec
  rw [noBasic, bearer]
  rcases field_endsWith (isAtHand_none secret) scope "token" b.token b.tokenSecretRef with
    ⟨e, he, htoken⟩ | ⟨token, next, hcredential, htoken, -⟩
  · rw [IsCredential.alone_eq he]
    rw [missing_none] at htoken
    exact htoken.bind_error _
  · rw [IsCredential.alone_eq hcredential, ← List.append_nil (neededBy _ _)]
    rw [missing_none] at htoken
    exact htoken.bind (.pure _)

theorem exists_of_bind_eq_ok {x : Resolution α} {f : α → Resolution β} {b : β}
    (h : ((x >>= f).run.run secret).1 = .ok b) : ∃ a, ((f a).run.run secret).1 = .ok b := by
  rw [Resolution.run_bind] at h
  cases hx : (x.run.run secret).1 with
  | error e =>
    rw [hx] at h
    cases h
  | ok a =>
    rw [hx] at h
    exact ⟨a, h⟩

/-- A specification comes to no client without credentials unless it asks for none. -/
theorem resolveSpec_eq_anonymous_iff (scope : Scope) (spec : AuthSpec) :
    ((resolveSpec scope spec).run.run secret).1 = .ok .anonymous ↔
      spec.basic = none ∧ spec.bearer = none := by
  unfold resolveSpec
  cases spec.basic with
  | some b =>
    refine iff_of_false (fun h => ?_) (fun h => by cases h.1)
    cases hbearer : spec.bearer with
    | some _ =>
      rw [hbearer] at h
      cases h
    | none =>
      rw [hbearer] at h
      obtain ⟨user, h⟩ := exists_of_bind_eq_ok h
      obtain ⟨pass, h⟩ := exists_of_bind_eq_ok h
      cases h
  | none =>
    cases spec.bearer with
    | some b =>
      refine iff_of_false (fun h => ?_) (fun h => by cases h.2)
      obtain ⟨token, h⟩ := exists_of_bind_eq_ok h
      cases h
    | none => exact iff_of_true rfl ⟨rfl, rfl⟩

/-- Who a client is comes from its repository's specification. It is nobody only if the specification
says nothing, and an error that names the repository if the specification says two things. Otherwise
each field is what it stands for by itself, and fails alone. Reading is cut short by a failure, and no
secret of a store that finds secrets under their own names is read twice. -/
theorem never_anonymous_by_accident (r : Repository) (source : RepositorySource)
    (secretNamespace : String) :
    let secret (name : String) := source.secret name secretNamespace
    let scope : Scope := ⟨r.name, secretNamespace⟩
    let result := ((resolve r secretNamespace).run secret).1
    let reads := (resolve r secretNamespace).reads secret
    ((resolve r secretNamespace).run secret).2 = reads.length ∧
    (∀ e, result = .error e → ∃ cause, e = .authConfig r.name cause) ∧
    (∀ name inline ref,
      IsCredential secret scope name inline ref (alone secret scope name inline ref)) ∧
    (result = .ok .anonymous ↔
      ∀ spec, r.spec.auth = some spec → spec.basic = none ∧ spec.bearer = none) ∧
    (result = .ok .anonymous → reads = []) ∧
    ∀ spec, r.spec.auth = some spec →
      (∀ basic bearer, spec.basic = some basic → spec.bearer = some bearer →
        result = .error (.authConfig r.name (.words "basic and bearer auth are mutually exclusive")) ∧
        reads = []) ∧
      (∀ b, spec.basic = none → spec.bearer = some b →
        result = (alone secret scope "token" b.token b.tokenSecretRef).map .bearer ∧
        reads = neededBy b.token b.tokenSecretRef) ∧
      ((∀ name s, secret name = .ok s → s.name = name) →
        ∀ b, spec.basic = some b → spec.bearer = none →
          let user := alone secret scope "username" b.username b.usernameSecretRef
          let pass := alone secret scope "password" b.password b.passwordSecretRef
          result = basicOf user pass ∧
          reads = basicReads user (neededBy b.username b.usernameSecretRef)
            (neededBy b.password b.passwordSecretRef)) := by
  intro secret scope result reads
  refine ⟨SecretPlan.run_snd secret _, fun e => exists_of_resolve_eq_error,
    isCredential_alone secret scope, ?_⟩
  cases hauth : r.spec.auth with
  | none =>
    have hplan : resolve r secretNamespace = .done (.ok .anonymous) := by rw [resolve, hauth]
    have hresult : result = .ok .anonymous := congrArg (fun plan => (plan.run secret).1) hplan
    have hreads : reads = [] := congrArg (SecretPlan.reads secret) hplan
    exact ⟨iff_of_true hresult fun _ h => (by cases h), fun _ => hreads, fun _ h => (by cases h)⟩
  | some spec =>
    have hplan : resolve r secretNamespace = (resolveSpec scope spec).run := by rw [resolve, hauth]
    have ends {x : Except RepoError Authenticator} {names : List String}
        (h : EndsWith secret (resolveSpec scope spec) x names) : result = x ∧ reads = names :=
      ⟨(congrArg (fun plan => (plan.run secret).1) hplan).trans h.result,
        (congrArg (SecretPlan.reads secret) hplan).trans h.reads⟩
    have hanonymous : result = .ok .anonymous ↔ spec.basic = none ∧ spec.bearer = none := by
      change ((resolve r secretNamespace).run secret).1 = _ ↔ _
      rw [hplan]
      exact resolveSpec_eq_anonymous_iff scope spec
    refine ⟨by simpa using hanonymous, fun h => ?_, ?_⟩
    · obtain ⟨noBasic, noBearer⟩ := hanonymous.1 h
      have hends : EndsWith secret (resolveSpec scope spec) (.ok .anonymous) [] := by
        rw [resolveSpec, noBasic, noBearer]
        exact EndsWith.pure _
      exact (ends hends).2
    rintro _ ⟨⟩
    refine ⟨fun basic bearer hbasic hbearer => ends ?_,
      fun b noBasic hbearer => ends (bearer_endsWith scope noBasic hbearer),
      fun named b hbasic noBearer => ends (basic_endsWith named scope hbasic noBearer)⟩
    rw [resolveSpec, hbasic, hbearer]
    exact .fail scope _

/-- Both fields come from one secret, the username as bytes and the password as a text; a username from
a secret that is not there keeps the password's from being read; and two blocks are one too many. -/
theorem never_anonymous_by_accident_of_three :
    let credentials : Secret :=
      { metadata := { name := "creds", «namespace» := "skiff-system" }
        data := some [("user", Text.encode "admin".toList)], stringData := some [("pass", "s3cret")] }
    let source := (({} : Inventory).putSecret credentials).toSource
    let secret (name : String) := source.secret name "skiff-system"
    let repository (auth : AuthSpec) : Repository :=
      { metadata := { name := "private" }, spec := { url := "http://h", auth } }
    let basic (secretName : String) : BasicAuth :=
      { usernameSecretRef := some ⟨secretName, "user"⟩, passwordSecretRef := some ⟨"creds", "pass"⟩ }
    let plan (auth : AuthSpec) := resolve (repository auth) "skiff-system"
    (∀ name s, secret name = .ok s → s.name = name) ∧
    ((plan { basic := basic "creds" }).run secret).1 = .ok (.basic "admin" "s3cret") ∧
    (plan { basic := basic "creds" }).reads secret = ["creds"] ∧
    (∃ cause, ((plan { basic := basic "absent" }).run secret).1 = .error (.authConfig "private" cause)) ∧
    (plan { basic := basic "absent" }).reads secret = ["absent"] ∧
    ((plan { basic := basic "creds", bearer := some { token := "t" } }).run secret).1 =
      .error (.authConfig "private" (.words "basic and bearer auth are mutually exclusive")) := by
  intro credentials source secret repository basic plan
  have named : ∀ name s, secret name = .ok s → s.name = name := by
    intro name s h
    change (({} : Inventory).putSecret credentials).secret name "skiff-system" = .ok s at h
    rw [Inventory.secret_putSecret] at h
    split_ifs at h with hname
    · exact Except.ok.inj h ▸ hname.2.symm
    · cases h
  have hbasic (auth : AuthSpec) :=
    never_anonymous_by_accident (repository auth) source "skiff-system"
  obtain ⟨-, -, -, -, -, hshared⟩ := hbasic { basic := basic "creds" }
  obtain ⟨hresult, hreads⟩ := (hshared _ rfl).2.2 named _ rfl rfl
  obtain ⟨-, hfails, -, -, -, habsent⟩ := hbasic { basic := basic "absent" }
  obtain ⟨hresult', hreads'⟩ := (habsent _ rfl).2.2 named _ rfl rfl
  obtain ⟨-, -, -, -, -, hboth⟩ := hbasic { basic := basic "creds", bearer := some { token := "t" } }
  refine ⟨named, hresult, hreads, ?_, hreads', ((hboth _ rfl).1 _ _ rfl rfl).1⟩
  obtain ⟨e, he⟩ : ∃ e, ((plan { basic := basic "absent" }).run secret).1 = .error e := ⟨_, hresult'⟩
  obtain ⟨cause, rfl⟩ := hfails e he
  exact ⟨cause, he⟩

end Authenticator
end ClusterPackages
