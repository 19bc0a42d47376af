import ClusterPackages.Clientset
import ClusterPackages.Proofs.Run
import ClusterPackages.Proofs.TextMap
import Mathlib.Data.List.Infix

/-! What client sets keep never shows. `clientNamed` builds a client afresh and `RepoClient.served`
fetches its catalog afresh; in a `Coherent` client set each lookup finds the client and each call
gives the answer that these give, and the client set stays coherent. -/

namespace ClusterPackages

/-! ## Answers without anything kept -/

namespace Web

variable {α : Type}

def reply (web : Web) (auth : Authenticator) (url : String) : Reply :=
  match target? url auth with
  | none => .unreachable
  | some u => web u.text

/-- The document at an address. -/
def document (web : Web) (auth : Authenticator) (c : Codec α) (url : String) : Except RepoError α :=
  judge c url (web.reply auth url)

/-- The requests that asking for a document leaves: one, if somebody takes it. -/
def asked (web : Web) (auth : Authenticator) (url : String) : List Request :=
  match target? url auth with
  | none => []
  | some u => if web u.text = .unreachable then [] else [⟨u.text, auth.header?⟩]

theorem get_run (web : Web) (auth : Authenticator) (url : String) (t : CallState) :
    (web.get auth url).run t =
      (.ok (web.reply auth url), { t with requests := t.requests ++ web.asked auth url }) := by
  unfold get reply asked
  cases target? url auth with
  | none => rw [List.append_nil]; rfl
  | some u =>
    by_cases h : web u.text = .unreachable
    · simp only [h, ne_eq, not_true_eq_false, if_false, if_true, List.append_nil]
      rfl
    · simp only [ne_eq, h, not_false_eq_true, if_true, if_false]
      rfl

theorem fetch_run_eq (web : Web) (auth : Authenticator) (c : Codec α) (url : String) (t : CallState) :
    (web.fetch auth c url).run t =
      (web.document auth c url, { t with requests := t.requests ++ web.asked auth url }) := by
  unfold fetch
  rw [Run.bind_of_ok (web.get_run auth url t)]
  rfl

/-- A fetch gives the document and leaves the catalog that is kept. -/
theorem fetch_run (web : Web) (auth : Authenticator) (c : Codec α) (url : String) (t : CallState) :
    ∃ requests, (web.fetch auth c url).run t = (web.document auth c url, { t with requests }) :=
  ⟨_, web.fetch_run_eq auth c url t⟩

end Web

namespace RepoClient

/-- The catalog of a client's repository. -/
def served (web : Web) (c : RepoClient) : Except RepoError Catalog :=
  web.document c.auth Catalog.codec c.catalogUrl

/-- The catalog that is kept if it is fresh, and else the one served. -/
def catalogFrom (web : Web) (c : RepoClient) (kept : Option Catalog) : Except RepoError Catalog :=
  match c.fresh? kept with
  | some x => .ok x
  | none => c.served web

theorem eq_some_of_fresh? {c : RepoClient} {kept : Option Catalog} {x : Catalog}
    (h : c.fresh? kept = some x) : kept = some x := by
  unfold fresh? at h
  split_ifs at h
  exact h

/-- A client keeps the catalog that it gives. -/
theorem catalog_run (web : Web) (c : RepoClient) (t : CallState) :
    ∃ requests, (c.catalog web).run t =
      (c.catalogFrom web t.catalog,
        { catalog := (c.catalogFrom web t.catalog).toOption.or t.catalog, requests }) := by
  obtain ⟨kept, before⟩ := t
  have hread : (get : Call CallState).run ⟨kept, before⟩ =
      (.ok ⟨kept, before⟩, ⟨kept, before⟩) := rfl
  unfold catalog catalogFrom
  rw [Run.bind_of_ok hread]
  cases hfresh : c.fresh? kept with
  | some x =>
    obtain rfl := eq_some_of_fresh? hfresh
    exact ⟨before, rfl⟩
  | none =>
    obtain ⟨after, hrun⟩ := web.fetch_run c.auth Catalog.codec c.catalogUrl ⟨kept, before⟩
    change (c.fetchCatalog web).run ⟨kept, before⟩ = (c.served web, _) at hrun
    refine ⟨after, ?_⟩
    dsimp only
    cases hserved : c.served web with
    | error e => rw [Run.bind_of_error (hserved ▸ hrun)]; rfl
    | ok x => rw [Run.bind_of_ok (hserved ▸ hrun)]; rfl

end RepoClient

/-- Repositories are found under their own names, by name as in the list. -/
structure RepositorySource.IsConsistent (source : RepositorySource) : Prop where
  named : ∀ name r, source.repository name = .ok r → r.name = name
  listed : ∀ rs r, source.repositories = .ok rs → r ∈ rs → source.repository r.name = .ok r

namespace Inventory

/-- Each repository is kept under its own name. -/
structure WellKeyed (i : Inventory) : Prop where
  sorted : i.repositories.IsSorted
  name_eq : ∀ e ∈ i.repositories, e.2.name = e.1

theorem wellKeyed_empty : WellKeyed {} := ⟨TextMap.isSorted_nil, by simp⟩

theorem WellKeyed.putRepository {i : Inventory} (h : WellKeyed i) (r : Repository) :
    WellKeyed (i.putRepository r) := by
  refine ⟨TextMap.isSorted_insert h.sorted _ _, fun e he => ?_⟩
  rcases TextMap.mem_of_mem_insert he with rfl | he
  · rfl
  · exact h.name_eq e he

theorem WellKeyed.removeRepository {i : Inventory} (h : WellKeyed i) (name : String) :
    WellKeyed (i.removeRepository name) :=
  ⟨TextMap.isSorted_erase h.sorted _, fun e he => h.name_eq e (List.mem_filter.1 he).1⟩

theorem WellKeyed.putSecret {i : Inventory} (h : WellKeyed i) (s : Secret) :
    WellKeyed (i.putSecret s) := ⟨h.sorted, h.name_eq⟩

/-- A cluster kept in memory finds its repositories under their own names. -/
theorem WellKeyed.isConsistent {i : Inventory} (h : WellKeyed i) : i.toSource.IsConsistent := by
  constructor
  · intro name r hr
    cases hget : i.repositories.get? name with
    | none => simp [toSource, hget] at hr
    | some r' =>
      simp only [toSource, hget, Except.ok.injEq] at hr
      exact hr ▸ h.name_eq _ (TextMap.mem_of_get?_eq_some hget)
  · intro rs r hrs hr
    obtain rfl := Except.ok.inj hrs
    obtain ⟨e, he, rfl⟩ := List.mem_map.1 hr
    have hget := (TextMap.get?_eq_some_iff h.sorted e.1 e.2).2 he
    simp only [toSource, h.name_eq e he, hget]

end Inventory

namespace Clientset

/-- The repository of a name; the empty name stands for the default one. -/
def repositoryNamed (env : Surroundings) (name : String) : Except RepoError Repository :=
  if name = "" then env.source.repositories.bind theDefault else env.source.repository name

def clientOf (env : Surroundings) (r : Repository) : Except RepoError RepoClient :=
  clientWith env r ((authPlan env r).run (secretOf env)).1

theorem clientOf_of_auth_none {env : Surroundings} {r : Repository} (h : r.spec.auth = none) :
    clientOf env r = RepoClient.create r.spec.url .anonymous env.settings.maxCacheAge := by
  unfold clientOf authPlan Authenticator.resolve
  rw [h]
  rfl

def clientNamed (env : Surroundings) (name : String) : Except RepoError RepoClient :=
  (repositoryNamed env name).bind (clientOf env)

end Clientset

/-! ## Calls -/

namespace RepoClient

/-- A catalog that is kept is the one that would be fetched. -/
def Keeps (web : Web) (c : RepoClient) (kept : Option Catalog) : Prop :=
  ∀ x, kept = some x → c.served web = .ok x

/-- A call that gives this answer whatever is kept, and keeps nothing wrong. -/
def Answers {α : Type} (web : Web) (c : RepoClient) (x : Call α) (answer : Except RepoError α) : Prop :=
  ∀ t, c.Keeps web t.catalog → (x.run t).1 = answer ∧ c.Keeps web (x.run t).2.catalog

variable {web : Web} {c : RepoClient} {α β : Type}

theorem Answers.pure (a : α) : Answers web c (pure a) (.ok a) := fun _ h => ⟨rfl, h⟩

theorem Answers.bind {x : Call α} {f : α → Call β} {answer : Except RepoError α}
    {next : α → Except RepoError β} (hx : Answers web c x answer)
    (hf : ∀ a, answer = .ok a → Answers web c (f a) (next a)) :
    Answers web c (x >>= f) (answer.bind next) := by
  intro t ht
  obtain ⟨hanswer, hkeeps⟩ := hx t ht
  rcases hrun : x.run t with ⟨e | a, t'⟩
  · rw [hrun] at hanswer hkeeps
    rw [Run.bind_of_error hrun, ← hanswer]
    exact ⟨rfl, hkeeps⟩
  · rw [hrun] at hanswer hkeeps
    rw [Run.bind_of_ok hrun, ← hanswer]
    exact hf a hanswer.symm t' hkeeps

theorem answers_fetch (auth : Authenticator) (codec : Codec α) (url : String) :
    Answers web c (web.fetch auth codec url) (web.document auth codec url) := by
  intro t ht
  obtain ⟨requests, h⟩ := web.fetch_run auth codec url t
  rw [h]
  exact ⟨rfl, ht⟩

/-- The catalog is the one served, kept or not. -/
theorem answers_catalog : Answers web c (c.catalog web) (c.served web) := by
  intro t ht
  have hfrom : c.catalogFrom web t.catalog = c.served web := by
    unfold catalogFrom
    cases hfresh : c.fresh? t.catalog with
    | some x => exact (ht x (eq_some_of_fresh? hfresh)).symm
    | none => rfl
  obtain ⟨requests, hrun⟩ := c.catalog_run web t
  rw [hrun, hfrom]
  dsimp only
  refine ⟨rfl, ?_⟩
  unfold Keeps at ht ⊢
  generalize c.served web = served at ht ⊢
  intro x hx
  cases served with
  | error e => exact ht x hx
  | ok y => exact congrArg Except.ok (Option.some.inj hx)

theorem answers_versionIndex (name : String) :
    Answers web c (c.versionIndex web name)
      (web.document c.auth VersionIndex.codec (c.versionIndexUrl name)) := answers_fetch _ _ _

theorem answers_manifest (name version : String) :
    Answers web c (c.manifest web name version)
      (web.document c.auth Manifest.codec (c.manifestUrl name version)) := answers_fetch _ _ _

theorem answers_latestVersion (name : String) :
    Answers web c (c.latestVersion web name)
      ((c.served web).bind fun x => .ok (((x.get? name).map (·.latestVersion)).getD "")) :=
  answers_catalog.bind fun _ _ => .pure _

end RepoClient

/-! ## What lookups and calls do -/

namespace Clientset

/-- The client that is kept for a repository, if it was built from the same specification. -/
def clientFor (s : Clientset) (r : Repository) : Option NumberedClient :=
  (s.entries.get? r.name).bind fun e => if e.spec = r.spec then some e.client else none

/-- With one more client, which keeps no catalog yet. -/
def withClient (s : Clientset) (r : Repository) (c : RepoClient) : Clientset :=
  { s with
    entries := s.entries.insert r.name
      { client := { number := s.catalogs.length, client := c }, spec := r.spec }
    catalogs := s.catalogs ++ [none] }

/-- What comes of a client that was built, or of the failure to build it. -/
def takenIn (s : Clientset) (r : Repository) : Except RepoError RepoClient → ClientRef × Clientset
  | .ok c => (.built { number := s.catalogs.length, client := c }, s.withClient r c)
  | .error e => (.failing e, { s with entries := s.entries.erase r.name })

/-- How many secrets it takes to build the client of a repository. -/
def secretReads (env : Surroundings) (r : Repository) : Nat :=
  ((authPlan env r).run (secretOf env)).2

theorem cachedFor_run (name : String) (spec : RepositorySpec) (s : Clientset) :
    (cachedFor name spec).run s =
      ((s.entries.get? name).bind fun e => if e.spec = spec then some e.client else none, s) := by
  unfold cachedFor
  simp only [StateT.run_bind, StateT.run_get, pure_bind]
  cases s.entries.get? name <;> rfl

/-- A client for the same specification comes first, and else what was built is taken in. -/
theorem takeIn_run (r : Repository) (result : Except RepoError RepoClient) (s : Clientset) :
    (takeIn r result).run s =
      match s.clientFor r with
      | some c => (.built c, s)
      | none => takenIn s r result := by
  unfold takeIn
  rw [StateT.run_bind, cachedFor_run]
  change (match s.clientFor r with
    | some c => (pure (ClientRef.built c) : Lookup ClientRef)
    | none => _).run s = _
  cases s.clientFor r with
  | some c => rfl
  | none => cases result <;> rfl

theorem forRepo_run (env : Surroundings) (r : Repository) (s : Clientset) :
    (forRepo env r).run s =
      match s.clientFor r with
      | some c => (.built c, s)
      | none =>
        takenIn { s with lookups.secrets := s.lookups.secrets + secretReads env r } r
          (clientOf env r) := by
  unfold forRepo
  rw [StateT.run_bind, cachedFor_run]
  change (match s.clientFor r with
    | some c => (pure (ClientRef.built c) : Lookup ClientRef)
    | none => do takeIn r (← build env r)).run s = _
  cases hc : s.clientFor r with
  | some c => rfl
  | none =>
    set t := { s with lookups.secrets := s.lookups.secrets + secretReads env r } with ht
    have hnone : t.clientFor r = none := hc
    change (takeIn r (clientOf env r)).run t = _
    rw [takeIn_run, hnone]

theorem recentlyChecked_run (env : Surroundings) (name : String) (s : Clientset) :
    (recentlyChecked env name).run s =
      (if env.settings.trustsClients then (s.entries.get? name).map (·.client) else none, s) := by
  unfold recentlyChecked
  split_ifs <;> rfl

/-- What a call on a client starts with. -/
def callState (s : Clientset) (c : NumberedClient) : CallState :=
  { catalog := (s.catalogs[c.number]?).join, requests := s.requests }

theorem call_run_built {α : Type} (c : NumberedClient) (op : RepoClient → Call α) (s : Clientset) :
    (call (.built c) op).run s =
      (((op c.client).run (s.callState c)).1,
        { s with
          catalogs := s.catalogs.set c.number ((op c.client).run (s.callState c)).2.catalog
          requests := ((op c.client).run (s.callState c)).2.requests }) := rfl

theorem exists_of_clientFor {s : Clientset} {r : Repository} {c : NumberedClient}
    (h : s.clientFor r = some c) :
    ∃ e, s.entries.get? r.name = some e ∧ e.spec = r.spec ∧ e.client = c := by
  obtain ⟨e, he, hspec⟩ := Option.bind_eq_some_iff.1 h
  split_ifs at hspec with heq
  exact ⟨e, he, heq, Option.some.inj hspec⟩

end Clientset

/-! ## Client sets -/

namespace Clientset

/-- A client set that keeps nothing wrong. `who` are the clients that were built, by number. -/
structure Coherent (env : Surroundings) (who : List RepoClient) (s : Clientset) : Prop where
  length : s.catalogs.length = who.length
  entry : ∀ name e, s.entries.get? name = some e →
    ∃ r, env.source.repository name = .ok r ∧ r.spec = e.spec ∧
      clientOf env r = .ok e.client.client ∧ who[e.client.number]? = some e.client.client
  kept : ∀ (n : ℕ) (c : RepoClient), who[n]? = some c → c.Keeps env.web (s.catalogs[n]?).join

theorem coherent_empty (env : Surroundings) : Coherent env [] {} := by
  exact ⟨rfl, fun name e h => (by cases h), fun n c h => (by cases h)⟩

theorem getElem?_mono {who who' : List RepoClient} (hw : who <+: who') {n : ℕ} {c : RepoClient}
    (h : who[n]? = some c) : who'[n]? = some c := by
  obtain ⟨more, rfl⟩ := hw
  have hn : n < who.length := (List.getElem?_eq_some_iff.1 h).1
  rw [List.getElem?_append_left hn, h]

/-- What a lookup finds is the client that building it now would give. -/
inductive Refers (who : List RepoClient) : ClientRef → Except RepoError RepoClient → Prop
  | built (c : NumberedClient) (h : who[c.number]? = some c.client) :
      Refers who (.built c) (.ok c.client)
  | failing (e : RepoError) : Refers who (.failing e) (.error e)

theorem Refers.mono {who who' : List RepoClient} (hw : who <+: who') {ref : ClientRef}
    {c : Except RepoError RepoClient} (h : Refers who ref c) : Refers who' ref c := by
  cases h with
  | built c h => exact .built c (getElem?_mono hw h)
  | failing e => exact .failing e

/-- From a coherent client set a lookup leads to a coherent one, and to a result of which `post`
holds. Clients that were built before keep their numbers. -/
def Yields {α : Type} (env : Surroundings) (who : List RepoClient) (x : Lookup α)
    (post : List RepoClient → α → Prop) : Prop :=
  ∀ s, Coherent env who s →
    ∃ who', who <+: who' ∧ Coherent env who' (x.run s).2 ∧ post who' (x.run s).1

section

variable {env : Surroundings} {who : List RepoClient} {α β : Type}

theorem Yields.pure {a : α} {post : List RepoClient → α → Prop} (h : post who a) :
    Yields env who (pure a) post := fun _ hs => ⟨who, List.prefix_rfl, hs, h⟩

theorem Yields.bind {x : Lookup α} {f : α → Lookup β} {mid : List RepoClient → α → Prop}
    {post : List RepoClient → β → Prop} (hx : Yields env who x mid)
    (hf : ∀ who' a, who <+: who' → mid who' a → Yields env who' (f a) post) :
    Yields env who (x >>= f) post := by
  intro s hs
  obtain ⟨who₁, hw₁, hs₁, hmid⟩ := hx s hs
  obtain ⟨who₂, hw₂, hs₂, hpost⟩ := hf who₁ _ hw₁ hmid _ hs₁
  exact ⟨who₂, hw₁.trans hw₂, hs₂, hpost⟩

/-- Neither clients nor catalogs change. -/
theorem Coherent.of_eq {s t : Clientset} (h : Coherent env who s) (he : t.entries = s.entries)
    (hc : t.catalogs = s.catalogs) : Coherent env who t :=
  ⟨hc ▸ h.length, he ▸ h.entry, hc ▸ h.kept⟩

theorem getRepository_yields (name : String) :
    Yields env who (getRepository env name) fun _ r => r = env.source.repository name :=
  fun _ hs => ⟨who, List.prefix_rfl, hs.of_eq rfl rfl, rfl⟩

theorem listRepositories_yields :
    Yields env who (listRepositories env) fun _ rs => rs = env.source.repositories :=
  fun _ hs => ⟨who, List.prefix_rfl, hs.of_eq rfl rfl, rfl⟩

/-- A client that is kept under a name is the one that would be built. -/
theorem Coherent.refers {s : Clientset} (hs : Coherent env who s) {name : String} {e : ClientEntry}
    (he : s.entries.get? name = some e) {r : Repository} (hr : env.source.repository name = .ok r) :
    Refers who (.built e.client) (clientOf env r) := by
  obtain ⟨r', hr', -, hclient, hnumber⟩ := hs.entry name e he
  obtain rfl := Except.ok.inj (hr'.symm.trans hr)
  rw [hclient]
  exact .built _ hnumber

theorem recentlyChecked_yields (name : String) :
    Yields env who (recentlyChecked env name) fun who' found =>
      ∀ c, found = some c →
        Refers who' (.built c) ((env.source.repository name).bind (clientOf env)) := by
  intro s hs
  rw [recentlyChecked_run]
  refine ⟨who, List.prefix_rfl, hs, fun c hc => ?_⟩
  split_ifs at hc
  obtain ⟨e, he, rfl⟩ := Option.map_eq_some_iff.1 hc
  obtain ⟨r, hr, -⟩ := hs.entry name e he
  rw [hr]
  exact hs.refers he hr

theorem Coherent.withClient {s : Clientset} (hs : Coherent env who s) {r : Repository}
    {c : RepoClient} (hr : env.source.repository r.name = .ok r) (hc : clientOf env r = .ok c) :
    Coherent env (who ++ [c]) (s.withClient r c) := by
  unfold Clientset.withClient
  have hnumber : (who ++ [c])[s.catalogs.length]? = some c := by
    rw [hs.length, List.getElem?_concat_length]
  refine ⟨by simp [hs.length], fun name e he => ?_, fun n d hd => ?_⟩
  · rw [TextMap.get?_insert] at he
    split_ifs at he with hname
    · obtain rfl := Option.some.inj he
      exact ⟨r, hname ▸ hr, rfl, hc, hnumber⟩
    · obtain ⟨r', hr', hspec, hclient, hn⟩ := hs.entry name e he
      exact ⟨r', hr', hspec, hclient, getElem?_mono (List.prefix_append _ _) hn⟩
  · intro x hx
    rw [List.getElem?_append] at hx hd
    split_ifs at hx hd with h₁ h₂ h₂
    · exact hs.kept n d hd x hx
    · exact absurd (hs.length ▸ h₁) h₂
    · exact absurd (hs.length.symm ▸ h₂) h₁
    · -- the new client keeps nothing yet
      rcases hk : n - s.catalogs.length with _ | k <;> simp [hk] at hx

theorem Coherent.erase {s : Clientset} (hs : Coherent env who s) (name : String) :
    Coherent env who { s with entries := s.entries.erase name } :=
  ⟨hs.length, fun name' e he => hs.entry name' e (TextMap.get?_of_get?_erase he), hs.kept⟩

theorem forRepo_yields {r : Repository} (hr : env.source.repository r.name = .ok r) :
    Yields env who (forRepo env r) fun who' ref => Refers who' ref (clientOf env r) := by
  intro s hs
  rw [forRepo_run]
  cases hfor : s.clientFor r with
  | some c =>
    obtain ⟨e, he, -, rfl⟩ := exists_of_clientFor hfor
    exact ⟨who, List.prefix_rfl, hs, hs.refers he hr⟩
  | none =>
    have hs' : Coherent env who
        { s with lookups.secrets := s.lookups.secrets + secretReads env r } := hs.of_eq rfl rfl
    cases hc : clientOf env r with
    | ok c =>
      refine ⟨who ++ [c], List.prefix_append _ _, hs'.withClient hr hc, .built _ ?_⟩
      simp only [hs.length, List.getElem?_concat_length]
    | error e => exact ⟨who, List.prefix_rfl, hs'.erase r.name, .failing e⟩

variable (consistent : env.source.IsConsistent)

theorem theDefault_mem {rs : List Repository} {r : Repository} (h : theDefault rs = .ok r) : r ∈ rs := by
  unfold theDefault at h
  have hfilter : rs.filter Repository.isDefault = [r] := by
    split at h
    · cases h
    · rename_i r' hr'
      rw [hr', Except.ok.inj h]
    · cases h
  exact (List.mem_filter.1 (hfilter ▸ List.mem_singleton_self r)).1

theorem defaultRepository_yields :
    Yields env who (defaultRepository env) fun _ r => r = env.source.repositories.bind theDefault := by
  unfold defaultRepository
  refine listRepositories_yields.bind fun who' rs hw hrs => ?_
  subst hrs
  cases env.source.repositories with
  | ok rs => exact .pure rfl
  | error e => exact .pure rfl

include consistent

theorem forDefault_yields :
    Yields env who (forDefault env) fun who' ref => Refers who' ref (clientNamed env "") := by
  unfold forDefault clientNamed repositoryNamed
  refine defaultRepository_yields.bind fun who' r hw hr => ?_
  rw [if_pos rfl, ← hr]
  cases r with
  | error e => exact .pure (.failing e)
  | ok r =>
    cases hrs : env.source.repositories with
    | error e =>
      rw [hrs] at hr
      cases hr
    | ok rs =>
      rw [hrs] at hr
      exact forRepo_yields (consistent.listed rs r hrs (theDefault_mem hr.symm))

/-- A lookup by name finds the client that building it now would give. -/
theorem forName_yields (name : String) :
    Yields env who (forName env name) fun who' ref => Refers who' ref (clientNamed env name) := by
  unfold forName
  split_ifs with hname
  · rw [hname]
    exact forDefault_yields consistent
  · have hclient : clientNamed env name = (env.source.repository name).bind (clientOf env) := by
      rw [clientNamed, repositoryNamed, if_neg hname]
    rw [hclient]
    refine (recentlyChecked_yields name).bind fun who₁ found hw₁ hfound => ?_
    cases found with
    | some c => exact .pure (hfound c rfl)
    | none =>
      refine (getRepository_yields name).bind fun who₂ r hw₂ hr => ?_
      subst hr
      cases hr : env.source.repository name with
      | error e => exact .pure (.failing e)
      | ok r => exact forRepo_yields (consistent.named name r hr ▸ hr)

omit consistent

theorem Coherent.setCatalog {s : Clientset} (hs : Coherent env who s) {n : ℕ} {c : RepoClient}
    (hn : who[n]? = some c) {kept : Option Catalog} (hkept : c.Keeps env.web kept)
    (requests : List Request) :
    Coherent env who { s with catalogs := s.catalogs.set n kept, requests } := by
  refine ⟨by simp [hs.length], hs.entry, fun m d hd => ?_⟩
  have hlt : n < s.catalogs.length := by
    rw [hs.length]
    exact (List.getElem?_eq_some_iff.1 hn).1
  simp only [List.getElem?_set]
  split_ifs with hm
  · obtain rfl : c = d := Option.some.inj (hn.symm.trans (hm ▸ hd))
    exact hkept
  · exact hs.kept m d hd

/-- A call on a client that a lookup found gives the answer that nothing kept would give. -/
theorem call_yields {ref : ClientRef} {c : Except RepoError RepoClient} (href : Refers who ref c)
    {op : RepoClient → Call α} {answer : RepoClient → Except RepoError α}
    (hop : ∀ d, RepoClient.Answers env.web d (op d) (answer d)) :
    Yields env who (call ref op) fun who' result => result = c.bind answer ∧ Refers who' ref c := by
  cases href with
  | failing e => exact .pure ⟨rfl, .failing e⟩
  | built c hnumber =>
    intro s hs
    obtain ⟨hanswer, hkeeps⟩ := hop c.client
      { catalog := (s.catalogs[c.number]?).join, requests := s.requests }
      (hs.kept c.number c.client hnumber)
    exact ⟨who, List.prefix_rfl, hs.setCatalog hnumber hkeeps _, hanswer, .built c hnumber⟩

end

end Clientset
end ClusterPackages
