import ClusterPackages.Proofs.Asking
import Mathlib.Data.List.Induction

/-! Where clients come from. Whatever a client set is used for, and however its surroundings change
from use to use, a client that is kept was built in one use, from the specification it is kept with
and with the secrets of that time. A lookup gives the client that is kept exactly if its
specification is the repository's; else it builds one, and a failure to do so is not kept. -/

namespace ClusterPackages

open Clientset

/-! ## Building -/

namespace RepoClient

/-- What is left of an address, and the slashes that were taken off. -/
theorem eq_trimSlashes_append (cs : List Char) :
    ∃ n, cs = trimSlashes cs ++ List.replicate n '/' := by
  set slashes := cs.reverse.takeWhile (· == '/') with hdef
  have hslashes : ∀ c ∈ slashes, c = '/' := by
    intro c hc
    have hall : slashes.all (· == '/') = true := List.all_takeWhile
    simpa using List.all_eq_true.1 hall c hc
  have hsplit : slashes ++ cs.reverse.dropWhile (· == '/') = cs.reverse :=
    List.takeWhile_append_dropWhile
  refine ⟨slashes.length, ?_⟩
  rw [← List.reverse_replicate, ← List.eq_replicate_of_mem hslashes, trimSlashes,
    ← List.reverse_append, hsplit, List.reverse_reverse]

theorem getLast?_trimSlashes (cs : List Char) : (trimSlashes cs).getLast? ≠ some '/' := by
  intro h
  unfold trimSlashes at h
  rw [List.getLast?_reverse] at h
  have hnot := List.head?_dropWhile_not (· == '/') cs.reverse
  rw [h] at hnot
  simp at hnot

theorem create_eq_ok {url : String} {auth : Authenticator} {age : Duration} {c : RepoClient}
    (h : create url auth age = .ok c) :
    ∃ u, Url.parse url = .ok u ∧ u.isWeb = true ∧
      c = { baseUrl := String.ofList (trimSlashes url.toList), auth, maxCacheAge := age } := by
  unfold create at h
  cases hu : Url.parse url with
  | error f =>
    rw [hu] at h
    cases h
  | ok u =>
    simp only [hu] at h
    split_ifs at h with hweb
    exact ⟨u, rfl, hweb, (Except.ok.inj h).symm⟩

end RepoClient

namespace Clientset

/-- A client as it is built from the specification that it is kept with, in these surroundings. -/
structure IsBuiltFrom (env : Surroundings) (name : String) (e : ClientEntry) : Prop where
  isWeb : ∃ u, Url.parse e.spec.url = .ok u ∧ u.isWeb = true
  /-- The base is the address without the slashes at its end. -/
  baseUrl : ∃ n, e.spec.url.toList = e.client.client.baseUrl.toList ++ List.replicate n '/'
  trimmed : e.client.client.baseUrl.toList.getLast? ≠ some '/'
  auth : ∃ r : Repository, r.name = name ∧ r.spec = e.spec ∧
    ((Authenticator.resolve r env.settings.secretNamespace).run (secretOf env)).1 =
      .ok e.client.client.auth

theorem isBuiltFrom_of_clientOf {env : Surroundings} {r : Repository} {c : RepoClient}
    (h : clientOf env r = .ok c) (n : ℕ) :
    IsBuiltFrom env r.name { client := { number := n, client := c }, spec := r.spec } := by
  obtain ⟨auth, hauth, hcreate⟩ := Run.except_bind_eq_ok_iff.1 h
  obtain ⟨u, hu, hweb, rfl⟩ := RepoClient.create_eq_ok hcreate
  refine ⟨⟨u, hu, hweb⟩, ?_, ?_, r, rfl, rfl, hauth⟩
  · rw [String.toList_ofList]
    exact RepoClient.eq_trimSlashes_append _
  · rw [String.toList_ofList]
    exact RepoClient.getLast?_trimSlashes _

/-! ## Uses -/

/-- What a client set can be used for. -/
inductive Use : Type 1
  | find (choice : ClientChoice)
  /-- A repository that need not be the source's. -/
  | findFor (r : Repository)
  /-- A client that may have been found long before. -/
  | call {α : Type} (ref : ClientRef) (op : RepoClient → Call α)
  | operation {α : Type} (packages : PackageSource) (op : Operation α)

def Use.run (env : Surroundings) (s : Clientset) : Use → Clientset
  | find choice => ((choice.find env).run s).2
  | findFor r => ((forRepo env r).run s).2
  | call ref op => ((Clientset.call ref op).run s).2
  | operation packages op => ((op.run env packages).run { repos := s }).2.repos

/-- Uses one after the other, each with what the surroundings are by then. -/
abbrev History := List (Surroundings × Use)

def through (s : Clientset) (history : History) : Clientset :=
  history.foldl (fun s use => use.2.run use.1 s) s

theorem through_concat (s : Clientset) (history : History) (env : Surroundings) (use : Use) :
    s.through (history ++ [(env, use)]) = use.run env (s.through history) := by
  simp [through]

theorem Use.keeps {env : Surroundings} {I : Clientset → Prop} (h : IsInvariant env I) (use : Use)
    {s : Clientset} (hs : I s) : I (use.run env s) := by
  cases use with
  | find choice => exact choice.find_keeps h s hs
  | findFor r => exact forRepo_keeps h r s hs
  | call ref op => exact call_keeps h ref op s hs
  | operation packages op => exact op.keeps h packages { repos := s } hs

theorem IsSound.through {s : Clientset} (h : IsSound s) (history : History) :
    IsSound (s.through history) := by
  induction history using List.reverseRecOn with
  | nil => exact h
  | append_singleton history last ih =>
    rw [through_concat]
    exact last.2.keeps (isInvariant_isSound last.1) ih

/-! ## Where entries come from -/

/-- An entry is an old one, or its client was built since. -/
structure GrewFrom (env : Surroundings) (s t : Clientset) : Prop where
  length_le : s.catalogs.length ≤ t.catalogs.length
  entry : ∀ name e, t.entries.get? name = some e →
    s.entries.get? name = some e ∨
      (s.catalogs.length ≤ e.client.number ∧ e.client.number < t.catalogs.length ∧
        IsBuiltFrom env name e)

theorem GrewFrom.refl (env : Surroundings) (s : Clientset) : GrewFrom env s s :=
  ⟨le_rfl, fun _ _ h => .inl h⟩

theorem isInvariant_grewFrom (env : Surroundings) (s : Clientset) :
    IsInvariant env (GrewFrom env s) where
  congr h he hc := by
    constructor
    · rw [hc]
      exact h.length_le
    · rw [he, hc]
      exact h.entry
  withClient {t r c} hc h := by
    have hlength : (t.withClient r c).catalogs.length = t.catalogs.length + 1 := by
      simp [Clientset.withClient]
    refine ⟨by rw [hlength]; exact h.length_le.trans (Nat.le_succ _), fun name e he => ?_⟩
    have hinsert : (t.withClient r c).entries.get? name = some e := he
    unfold Clientset.withClient at hinsert
    rw [TextMap.get?_insert] at hinsert
    rw [hlength]
    split_ifs at hinsert with hname
    · obtain rfl := Option.some.inj hinsert
      exact .inr ⟨h.length_le, Nat.lt_succ_self _, hname ▸ isBuiltFrom_of_clientOf hc _⟩
    · rcases h.entry name e hinsert with hold | ⟨hle, hlt, hbuilt⟩
      · exact .inl hold
      · exact .inr ⟨hle, hlt.trans (Nat.lt_succ_self _), hbuilt⟩
  erase name h := ⟨h.length_le, fun _ _ he => h.entry _ _ (TextMap.get?_of_get?_erase he)⟩
  setCatalog n kept h := by
    refine ⟨?_, fun name e he => ?_⟩
    · rw [List.length_set]
      exact h.length_le
    · rw [List.length_set]
      exact h.entry name e he

/-- The client of an entry was built in one use of a history that began with `s`. Clients are
numbered as they are built. -/
def IsBuiltIn (s : Clientset) (history : History) (name : String) (e : ClientEntry) : Prop :=
  ∃ before env use rest, history = before ++ (env, use) :: rest ∧
    (s.through before).catalogs.length ≤ e.client.number ∧
    e.client.number < (s.through (before ++ [(env, use)])).catalogs.length ∧
    IsBuiltFrom env name e

theorem entry_through (s : Clientset) (history : History) {name : String} {e : ClientEntry}
    (h : (s.through history).entries.get? name = some e) :
    s.entries.get? name = some e ∨ IsBuiltIn s history name e := by
  induction history using List.reverseRecOn with
  | nil => exact .inl h
  | append_singleton history last ih =>
    obtain ⟨env, use⟩ := last
    have hgrew : GrewFrom env (s.through history) (s.through (history ++ [(env, use)])) := by
      rw [through_concat]
      exact use.keeps (isInvariant_grewFrom env _) (.refl env _)
    rcases hgrew.entry name e h with hold | ⟨hle, hlt, hbuilt⟩
    · rcases ih hold with hold | ⟨before, env', use', rest, rfl, hin⟩
      · exact .inl hold
      · exact .inr ⟨before, env', use', rest ++ [(env, use)], by simp, hin⟩
    · exact .inr ⟨history, env, use, [], rfl, hle, hlt, hbuilt⟩

/-! ## Lookups -/

/-- The client that is kept for a repository was built from the repository's specification. -/
def IsUpToDate (s : Clientset) (r : Repository) : Prop :=
  ∃ e, s.entries.get? r.name = some e ∧ e.spec = r.spec

/-- A lookup that builds a client, and keeps it if there is one. -/
structure BuildsAnew (env : Surroundings) (r : Repository) (s : Clientset) : Prop where
  secrets : ((forRepo env r).run s).2.lookups.secrets = s.lookups.secrets + secretReads env r
  built : ∀ c, clientOf env r = .ok c →
    ((forRepo env r).run s).1 = .built { number := s.catalogs.length, client := c } ∧
    ((forRepo env r).run s).2.entries.get? r.name =
      some { client := { number := s.catalogs.length, client := c }, spec := r.spec } ∧
    ((forRepo env r).run s).2.catalogs = s.catalogs ++ [none]
  failed : ∀ e, clientOf env r = .error e →
    ((forRepo env r).run s).1 = .failing e ∧
    ((forRepo env r).run s).2.entries.get? r.name = none ∧
    ((forRepo env r).run s).2.catalogs = s.catalogs

theorem clientFor_eq_some {s : Clientset} {r : Repository} {e : ClientEntry}
    (he : s.entries.get? r.name = some e) (hspec : e.spec = r.spec) :
    s.clientFor r = some e.client := by
  simp [clientFor, he, hspec]

theorem clientFor_eq_none {s : Clientset} {r : Repository} (h : ¬ s.IsUpToDate r) :
    s.clientFor r = none := by
  refine Option.eq_none_iff_forall_ne_some.2 fun c hc => h ?_
  obtain ⟨e, he, hspec, -⟩ := exists_of_clientFor hc
  exact ⟨e, he, hspec⟩

theorem buildsAnew {s : Clientset} {r : Repository} (env : Surroundings) (h : ¬ s.IsUpToDate r) :
    BuildsAnew env r s := by
  have hrun := forRepo_run env r s
  rw [clientFor_eq_none h] at hrun
  dsimp only at hrun
  constructor
  · rw [hrun]
    cases clientOf env r <;> rfl
  · intro c hc
    rw [hrun, hc]
    refine ⟨rfl, ?_, rfl⟩
    change (s.entries.insert r.name _).get? r.name = _
    rw [TextMap.get?_insert, if_pos rfl]
  · intro e he
    rw [hrun, he]
    refine ⟨rfl, ?_, rfl⟩
    change (s.entries.erase r.name).get? r.name = _
    rw [TextMap.get?_erase, if_pos rfl]

/-- A lookup leaves the entries of other names. -/
theorem forRepo_get?_of_ne (env : Surroundings) (r : Repository) (s : Clientset) {name : String}
    (hne : name ≠ r.name) :
    ((forRepo env r).run s).2.entries.get? name = s.entries.get? name := by
  rw [forRepo_run]
  cases s.clientFor r with
  | some c => rfl
  | none =>
    cases clientOf env r with
    | ok c =>
      change (s.entries.insert r.name _).get? name = _
      rw [TextMap.get?_insert, if_neg hne]
    | error e =>
      change (s.entries.erase r.name).get? name = _
      rw [TextMap.get?_erase, if_neg hne]

/-- A client is kept with the specification that it was built from, and is found exactly as long as
the repository has that specification. Otherwise one is built; a failure is not kept. -/
theorem clients_kept_by_specification (history : History) :
    let s := through {} history
    (∀ name e, s.entries.get? name = some e → IsBuiltIn {} history name e) ∧
    ∀ (env : Surroundings) (r : Repository),
      let ref := ((forRepo env r).run s).1
      let t := ((forRepo env r).run s).2
      ((∃ c, ref = .built c ∧ c.number < s.catalogs.length) ↔ s.IsUpToDate r) ∧
      (∀ e, s.entries.get? r.name = some e → e.spec = r.spec → ref = .built e.client ∧ t = s) ∧
      (¬ s.IsUpToDate r → BuildsAnew env r s ∧
        ∀ error, clientOf env r = .error error →
          (∀ {α : Type} (op : RepoClient → Call α) (u : Clientset),
            (call ref op).run u = (.error error, u)) ∧
          (∀ (env' : Surroundings) (r' : Repository), r'.name = r.name → BuildsAnew env' r' t) ∧
          ∀ more e, (t.through more).entries.get? r.name = some e → IsBuiltIn t more r.name e) ∧
      ∀ name, name ≠ r.name → t.entries.get? name = s.entries.get? name := by
  intro s
  have hsound : IsSound s := isSound_empty.through history
  refine ⟨fun name e he => ?_, fun env r => ?_⟩
  · rcases entry_through {} history he with hold | hbuilt
    · cases hold
    · exact hbuilt
  intro ref t
  have hkept {e : ClientEntry} (he : s.entries.get? r.name = some e) (hspec : e.spec = r.spec) :
      ref = .built e.client ∧ t = s := by
    have hrun := forRepo_run env r s
    rw [clientFor_eq_some he hspec] at hrun
    exact ⟨congrArg Prod.fst hrun, congrArg Prod.snd hrun⟩
  refine ⟨⟨?_, ?_⟩, fun e he hspec => hkept he hspec, fun hstale => ?_, fun name hne => ?_⟩
  · -- a client that is built now gets a number that no other has
    rintro ⟨c, hc, hlt⟩
    by_contra hstale
    have hnew := buildsAnew env hstale
    cases hclient : clientOf env r with
    | ok client =>
      have heq := hc.symm.trans (hnew.built client hclient).1
      obtain rfl := ClientRef.built.inj heq
      exact absurd hlt (lt_irrefl _)
    | error error =>
      have heq := hc.symm.trans (hnew.failed error hclient).1
      cases heq
  · rintro ⟨e, he, hspec⟩
    exact ⟨e.client, (hkept he hspec).1, hsound.inRange r.name e he⟩
  · refine ⟨buildsAnew env hstale, fun error herror => ?_⟩
    obtain ⟨href, hnone, -⟩ := (buildsAnew env hstale).failed error herror
    change ref = _ at href
    change t.entries.get? r.name = none at hnone
    refine ⟨fun op u => ?_, fun env' r' hname => ?_, fun more e he => ?_⟩
    · rw [href]
      rfl
    · refine buildsAnew env' fun ⟨e, he, _⟩ => ?_
      rw [hname, hnone] at he
      cases he
    · rcases entry_through t more he with hold | hbuilt
      · rw [hnone] at hold
        cases hold
      · exact hbuilt
  · exact forRepo_get?_of_ne env r s hne

/-- A client that could not be built before its secret was there, and is kept although that has
changed since. -/
theorem clients_kept_by_specification_secret :
    let bearer : BearerAuth := { tokenSecretRef := some { name := "s", key := "k" } }
    let r : Repository :=
      { metadata := { name := "r" }
        spec := { url := "http://h//", auth := some { bearer := some bearer } } }
    let inventory := ({} : Inventory).putRepository r
    let holding (token : String) : Inventory :=
      inventory.putSecret { metadata := { name := "s", «namespace» := "skiff-system" }
                            data := some [("k", Text.encode token.toList)] }
    let env (i : Inventory) : Surroundings :=
      { settings := {}, source := i.toSource, web := fun _ => .unreachable }
    let history : History :=
      [(env inventory, .find (.named "r")), (env (holding "t"), .findFor r),
       (env (holding "u"), .operation (PackageStore.ofList []).toSource .mergedCatalog)]
    let s := through {} history
    ∃ e, s.entries.get? "r" = some e ∧ e.client.client.baseUrl = "http://h" ∧
      e.client.client.auth = .bearer "t" ∧ IsBuiltIn {} history "r" e ∧
      ((forRepo (env (holding "u")) r).run s).1 = .built e.client ∧
      ((forRepo (env (holding "u")) r).run s).2.lookups.secrets = s.lookups.secrets := by
  intro bearer r inventory holding env history s
  have hentry : (s.entries.get? "r").map (fun e => (e.client.client, e.spec)) =
      some ({ baseUrl := "http://h", auth := .bearer "t", maxCacheAge := .ofSeconds 300 }, r.spec) := by
    decide +kernel
  obtain ⟨e, he, heq⟩ := Option.map_eq_some_iff.1 hentry
  obtain ⟨hclient, hspec⟩ := Prod.mk.inj heq
  obtain ⟨horigin, hlookup⟩ := clients_kept_by_specification history
  obtain ⟨-, hkept, -⟩ := hlookup (env (holding "u")) r
  obtain ⟨hfound, hsame⟩ := hkept e he hspec
  refine ⟨e, he, by rw [hclient], by rw [hclient], horigin "r" e he, hfound, ?_⟩
  exact congrArg (fun t => t.lookups.secrets) hsame

end Clientset
end ClusterPackages
