import ClusterPackages.Proofs.Provenance

/-! Lookups by name when no client is trusted for any time. Each reads the repository that is stored
at that moment and then goes by its specification, whatever was stored and looked up before. Where
none is stored the lookup fails and changes no client, and so a repository that comes back as it was
finds the client that it had. -/

namespace ClusterPackages

open Clientset

/-! ## Sites -/

/-- A client set and the cluster that it works with. -/
structure Site where
  settings : Settings
  web : Web
  inventory : Inventory := {}
  clients : Clientset := {}

inductive Event : Type 1
  | put (r : Repository)
  | remove (name : String)
  | putSecret (secret : Secret)
  /-- From now on addresses answer so. -/
  | serve (web : Web)
  | use (use : Use)

namespace Site

/-- What the client set works with at the moment. -/
def env (site : Site) : Surroundings where
  settings := site.settings
  source := site.inventory.toSource
  web := site.web

def step (site : Site) : Event → Site
  | .put r => { site with inventory := site.inventory.putRepository r }
  | .remove name => { site with inventory := site.inventory.removeRepository name }
  | .putSecret secret => { site with inventory := site.inventory.putSecret secret }
  | .serve web => { site with web }
  | .use use => { site with clients := use.run site.env site.clients }

def run (site : Site) (events : List Event) : Site := events.foldl step site

/-- The uses among events, with the surroundings of each. -/
def history (site : Site) : List Event → History
  | [] => []
  | .use use :: events => (site.env, use) :: (site.step (.use use)).history events
  | event :: events => (site.step event).history events

theorem clients_run (site : Site) (events : List Event) :
    (site.run events).clients = site.clients.through (site.history events) := by
  induction events generalizing site with
  | nil => rfl
  | cons event events ih =>
    change ((site.step event).run events).clients = _
    rw [ih]
    cases event <;> rfl

theorem settings_run (site : Site) (events : List Event) :
    (site.run events).settings = site.settings := by
  induction events generalizing site with
  | nil => rfl
  | cons event events ih =>
    refine (ih (site.step event)).trans ?_
    cases event <;> rfl

theorem wellKeyed_step {site : Site} (h : site.inventory.WellKeyed) (event : Event) :
    (site.step event).inventory.WellKeyed := by
  cases event with
  | put r => exact h.putRepository r
  | remove name => exact h.removeRepository name
  | putSecret secret => exact h.putSecret secret
  | serve web => exact h
  | use use => exact h

theorem wellKeyed_run {site : Site} (h : site.inventory.WellKeyed) (events : List Event) :
    (site.run events).inventory.WellKeyed := by
  induction events generalizing site with
  | nil => exact h
  | cons event events ih => exact ih (wellKeyed_step h event)

end Site

/-! ## Lookups by name -/

namespace Clientset

/-- After one more repository was read. -/
def withRead (s : Clientset) : Clientset :=
  { s with lookups.repositories := s.lookups.repositories + 1 }

/-- A lookup that trusts no client reads the repository. -/
theorem forName_run {env : Surroundings} (wary : env.settings.trustsClients = false) {name : String}
    (named : name ≠ "") (s : Clientset) :
    (forName env name).run s =
      match env.source.repository name with
      | .ok r => (forRepo env r).run s.withRead
      | .error e => (.failing e, s.withRead) := by
  unfold forName
  rw [if_neg named, StateT.run_bind, recentlyChecked_run, wary]
  change (match env.source.repository name with
    | .ok r => forRepo env r
    | .error e => pure (.failing e)).run s.withRead = _
  cases env.source.repository name <;> rfl

/-- The lookup for a repository reads none. -/
theorem lookups_forRepo (env : Surroundings) (r : Repository) (s : Clientset) :
    ((forRepo env r).run s).2.lookups.repositories = s.lookups.repositories ∧
      ((forRepo env r).run s).2.lookups.lists = s.lookups.lists := by
  rw [forRepo_run]
  cases s.clientFor r with
  | some c => exact ⟨rfl, rfl⟩
  | none => cases clientOf env r <;> exact ⟨rfl, rfl⟩

/-- A client that a lookup gives is kept with the specification of the repository. -/
theorem entry_of_built {env : Surroundings} {r : Repository} {s : Clientset} {c : NumberedClient}
    (h : ((forRepo env r).run s).1 = .built c) :
    ((forRepo env r).run s).2.entries.get? r.name = some { client := c, spec := r.spec } := by
  by_cases hfresh : s.IsUpToDate r
  · obtain ⟨e, he, hspec⟩ := hfresh
    rw [forRepo_run, clientFor_eq_some he hspec] at h ⊢
    obtain rfl := ClientRef.built.inj h
    rw [← hspec]
    exact he
  · have hnew := buildsAnew env hfresh
    cases hclient : clientOf env r with
    | ok client =>
      obtain ⟨href, hentry, -⟩ := hnew.built client hclient
      obtain rfl := ClientRef.built.inj (href.symm.trans h)
      exact hentry
    | error e =>
      have href := (hnew.failed e hclient).1
      cases href.symm.trans h

theorem clientOf_of_failing {env : Surroundings} {r : Repository} {s : Clientset} {e : RepoError}
    (h : ((forRepo env r).run s).1 = .failing e) : clientOf env r = .error e := by
  rw [forRepo_run] at h
  cases hkept : s.clientFor r with
  | some c =>
    rw [hkept] at h
    cases h
  | none =>
    rw [hkept] at h
    cases hclient : clientOf env r with
    | ok c =>
      rw [hclient] at h
      cases h
    | error e' =>
      rw [hclient] at h
      exact congrArg Except.error (ClientRef.failing.inj h)

/-- A client that is kept for a repository is found if the repository is stored. -/
theorem forName_of_kept {env : Surroundings} (wary : env.settings.trustsClients = false)
    {r : Repository} (named : r.name ≠ "") (stored : env.source.repository r.name = .ok r)
    {s : Clientset} {e : ClientEntry} (he : s.entries.get? r.name = some e) (hspec : e.spec = r.spec) :
    (forName env r.name).run s = (.built e.client, s.withRead) := by
  have hkept : s.withRead.clientFor r = some e.client := clientFor_eq_some he hspec
  rw [forName_run wary named, stored]
  dsimp only
  rw [forRepo_run, hkept]

/-- Whatever is kept after a use was built in it or in one before. -/
theorem isBuiltIn_of_use (history : History) (env : Surroundings) (use : Use) {name : String}
    {e : ClientEntry} (h : (use.run env (through {} history)).entries.get? name = some e) :
    IsBuiltIn {} (history ++ [(env, use)]) name e := by
  rw [← through_concat] at h
  rcases entry_through {} _ h with hold | hbuilt
  · cases hold
  · exact hbuilt

end Clientset

namespace Inventory

theorem repository_of_get? {i : Inventory} {name : String} {r : Repository}
    (h : i.repositories.get? name = some r) : i.toSource.repository name = .ok r := by
  simp only [toSource, h]

theorem repository_of_absent {i : Inventory} {name : String}
    (h : i.repositories.get? name = none) :
    i.toSource.repository name = .error (.repositoryNotFound name) := by
  simp only [toSource, h]

theorem get?_putRepository (i : Inventory) (r : Repository) :
    (i.putRepository r).repositories.get? r.name = some r := by
  change (i.repositories.insert r.name r).get? r.name = _
  rw [TextMap.get?_insert, if_pos rfl]

end Inventory

/-! ## Freshness -/

/-- If no client is trusted for any time, then each lookup by name reads one repository and is the
lookup for the one that is stored: its client was built at some time from the specification that is
stored now, or building one fails. Where none is stored every call fails and all clients stay, so
that the repository finds its client again when it is put back with the specification it had. -/
theorem lookups_follow_what_is_stored (settings : Settings)
    (zero : settings.clientCheckInterval.nanos = 0) (web : Web) (events : List Event)
    (name : String) (named : name ≠ "") :
    let start : Site := { settings, web }
    let site := start.run events
    let s := site.clients
    let ref := ((forName site.env name).run s).1
    let t := ((forName site.env name).run s).2
    t.lookups.repositories = s.lookups.repositories + 1 ∧ t.lookups.lists = s.lookups.lists ∧
    (∀ r, site.inventory.repositories.get? name = some r →
      r.name = name ∧ (forName site.env name).run s = (forRepo site.env r).run s.withRead ∧
      (∀ c, ref = .built c → t.entries.get? name = some { client := c, spec := r.spec } ∧
        IsBuiltIn {} (start.history events ++ [(site.env, .find (.named name))]) name
          { client := c, spec := r.spec }) ∧
      ∀ e, ref = .failing e → clientOf site.env r = .error e ∧
        ∀ {α : Type} (op : RepoClient → Call α) (u : Clientset),
          (call ref op).run u = (.error e, u)) ∧
    (site.inventory.repositories.get? name = none →
      (∀ {α : Type} (op : RepoClient → Call α) (u : Clientset),
        (call ref op).run u = (.error (.repositoryNotFound name), u)) ∧
      t = s.withRead ∧
      ∀ e r, s.entries.get? name = some e → r.name = name → r.spec = e.spec →
        let back := (site.step (.use (.find (.named name)))).step (.put r)
        (forName back.env name).run back.clients = (.built e.client, back.clients.withRead)) := by
  intro start site s ref t
  have wary : site.env.settings.trustsClients = false := by
    have hsettings : site.env.settings = settings := Site.settings_run start events
    rw [hsettings]
    simp [Settings.trustsClients, zero]
  have hclients : s = through {} (start.history events) := Site.clients_run start events
  have hrun := forName_run wary named s
  cases hstored : site.inventory.repositories.get? name with
  | some r =>
    have hsource : site.env.source.repository name = .ok r := Inventory.repository_of_get? hstored
    have hkeyed : site.inventory.WellKeyed := Site.wellKeyed_run Inventory.wellKeyed_empty events
    obtain rfl : r.name = name := hkeyed.isConsistent.named name r hsource
    rw [hsource] at hrun
    have href : ref = ((forRepo site.env r).run s.withRead).1 := congrArg Prod.fst hrun
    have ht : t = ((forRepo site.env r).run s.withRead).2 := congrArg Prod.snd hrun
    obtain ⟨hreads, hlists⟩ := lookups_forRepo site.env r s.withRead
    refine ⟨ht ▸ hreads, ht ▸ hlists, fun r' hr' => ?_, fun habsent => (by cases habsent)⟩
    obtain rfl := Option.some.inj hr'
    refine ⟨rfl, hrun, fun c hc => ?_, fun e he => ⟨clientOf_of_failing (href.symm.trans he),
      fun op u => by rw [he]; rfl⟩⟩
    have hentry : t.entries.get? r.name = some { client := c, spec := r.spec } := by
      rw [ht]
      exact entry_of_built (href.symm.trans hc)
    refine ⟨hentry, isBuiltIn_of_use _ site.env (.find (.named r.name)) ?_⟩
    rw [← hclients]
    exact hentry
  | none =>
    rw [show site.env.source.repository name = _ from Inventory.repository_of_absent hstored] at hrun
    have href : ref = .failing (.repositoryNotFound name) := congrArg Prod.fst hrun
    have ht : t = s.withRead := congrArg Prod.snd hrun
    refine ⟨ht ▸ rfl, ht ▸ rfl, fun r hr => (by cases hr), fun _ => ⟨fun op u => by rw [href]; rfl,
      ht, ?_⟩⟩
    -- the failed lookup has left the client, which is found by its specification
    rintro e r he rfl hspec back
    have hback : back.clients = s.withRead := ht
    have hagain : back.env.source.repository r.name = .ok r :=
      Inventory.repository_of_get? (Inventory.get?_putRepository site.inventory r)
    have hfound : back.env.settings.trustsClients = false := wary
    rw [hback]
    exact forName_of_kept hfound named hagain he hspec.symm

/-- A repository that was looked up is removed, missed and put back. -/
theorem lookups_follow_what_is_stored_back :
    let settings : Settings := { clientCheckInterval := .ofSeconds 0 }
    let web : Web := fun _ => .unreachable
    let r : Repository := { metadata := { name := "r" }, spec := { url := "http://h" } }
    let client : NumberedClient :=
      { number := 0, client := { baseUrl := "http://h", auth := .anonymous, maxCacheAge := .ofSeconds 300 } }
    let start : Site := { settings, web }
    let lookup : Event := .use (.find (.named "r"))
    let before : List Event := [.put r, lookup, .remove "r"]
    let events : List Event := [.put r, lookup, .remove "r", lookup, .put r]
    let removed := start.run before
    let back := start.run events
    removed.clients.entries.get? "r" = some { client, spec := r.spec } ∧
    (call ((forName removed.env "r").run removed.clients).1 fun c => c.catalog web).run removed.clients =
      (.error (.repositoryNotFound "r"), removed.clients) ∧
    (forName back.env "r").run back.clients = (.built client, back.clients.withRead) ∧
    ((forName back.env "r").run back.clients).2.lookups.repositories = 3 ∧
    IsBuiltIn {} (start.history events ++ [(back.env, .find (.named "r"))]) "r"
      { client, spec := r.spec } := by
  intro settings web r client start lookup before events removed back
  have hentry : removed.clients.entries.get? "r" = some { client, spec := r.spec } := by
    decide +kernel
  have hremoved : removed.inventory.repositories.get? "r" = none := rfl
  obtain ⟨-, -, -, habsent⟩ := lookups_follow_what_is_stored settings rfl web before "r" (by decide)
  obtain ⟨hfails, -, hback⟩ := habsent hremoved
  have hfailed := hfails (fun c => c.catalog web) removed.clients
  have hfound : (forName back.env "r").run back.clients = (.built client, back.clients.withRead) :=
    hback _ r hentry rfl rfl
  have hstored : back.inventory.repositories.get? "r" = some r := rfl
  have hbefore : back.clients.lookups.repositories = 2 := by decide +kernel
  obtain ⟨hreads, -, hpresent, -⟩ :=
    lookups_follow_what_is_stored settings rfl web events "r" (by decide)
  obtain ⟨-, -, hbuilt, -⟩ := hpresent r hstored
  refine ⟨hentry, hfailed, hfound, ?_, (hbuilt client (congrArg Prod.fst hfound)).2⟩
  rw [hreads, hbefore]

end ClusterPackages
