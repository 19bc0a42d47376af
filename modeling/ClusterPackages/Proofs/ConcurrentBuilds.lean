import ClusterPackages.Clientset.Build
import ClusterPackages.Proofs.Provenance
import Mathlib.Data.List.Nodup

/-! Lookups side by side. However their steps interleave, a lookup gives a client that was built from
a specification like its own, or the error of its own build: the last step takes what others have
kept by then only if its specification is the same. Where all look for the same, the first to take
in its client decides which client all of them give, however many they have built. -/

namespace ClusterPackages.Clientset

/-! ## Steps -/

/-- A step of a lookup: from where it goes to where, and the client set then. -/
inductive BuildStage.Moves (env : Surroundings) (s : Clientset) :
    BuildStage → BuildStage → Clientset → Prop
  | hit {r : Repository} {c : NumberedClient} (h : s.clientFor r = some c) :
      Moves env s (.begun r) (.found (.built c)) s
  | miss {r : Repository} (h : s.clientFor r = none) : Moves env s (.begun r) (.missed r) s
  | build {r : Repository} : Moves env s (.missed r) (.built r (clientOf env r))
      { s with lookups.secrets := s.lookups.secrets + secretReads env r }
  | adopt {r : Repository} {result : Except RepoError RepoClient} {c : NumberedClient}
      (h : s.clientFor r = some c) : Moves env s (.built r result) (.found (.built c)) s
  | keep {r : Repository} {c : RepoClient} (h : s.clientFor r = none) :
      Moves env s (.built r (.ok c)) (.found (.built { number := s.catalogs.length, client := c }))
        (s.withClient r c)
  | fail {r : Repository} {e : RepoError} (h : s.clientFor r = none) :
      Moves env s (.built r (.error e)) (.found (.failing e))
        { s with entries := s.entries.erase r.name }
  | rest {ref : ClientRef} : Moves env s (.found ref) (.found ref) s

theorem BuildStage.begun_next_run (env : Surroundings) (r : Repository) (s : Clientset) :
    ((begun r).next env).run s =
      (match s.clientFor r with
        | some c => .found (.built c)
        | none => .missed r, s) := by
  unfold next
  rw [StateT.run_bind, cachedFor_run]
  change (match s.clientFor r with
    | some c => (pure (.found (.built c)) : Lookup BuildStage)
    | none => pure (.missed r)).run s = _
  cases s.clientFor r <;> rfl

theorem BuildStage.moves_next (env : Surroundings) (stage : BuildStage) (s : Clientset) :
    Moves env s stage ((stage.next env).run s).1 ((stage.next env).run s).2 := by
  cases stage with
  | begun r =>
    rw [begun_next_run]
    cases hc : s.clientFor r with
    | some c => exact .hit hc
    | none => exact .miss hc
  | missed r => exact .build
  | built r result =>
    have hrun : ((built r result).next env).run s =
        (.found ((takeIn r result).run s).1, ((takeIn r result).run s).2) := rfl
    rw [hrun, takeIn_run]
    cases hc : s.clientFor r with
    | some c => exact .adopt hc
    | none =>
      cases result with
      | ok c => exact .keep hc
      | error e => exact .fail hc
  | found ref => exact .rest

/-- What is kept after a step was kept before it, or has just been built. -/
theorem BuildStage.Moves.entry {env : Surroundings} {s t : Clientset} {a b : BuildStage}
    (h : Moves env s a b t) {name : String} {e : ClientEntry} (he : t.entries.get? name = some e) :
    s.entries.get? name = some e ∨
      ∃ r, a = .built r (.ok e.client.client) ∧ r.name = name ∧ r.spec = e.spec := by
  cases h with
  | @keep r c hnone =>
    have hinsert : (s.withClient r c).entries.get? name = some e := he
    unfold Clientset.withClient at hinsert
    rw [TextMap.get?_insert] at hinsert
    split_ifs at hinsert with hname
    · obtain rfl := Option.some.inj hinsert
      exact .inr ⟨r, rfl, hname.symm, rfl⟩
    · exact .inl hinsert
  | fail hnone => exact .inl (TextMap.get?_of_get?_erase he)
  | _ => exact .inl he

namespace Builds

variable {s : Builds} {turn : ℕ × Surroundings}

/-- All lookups are still to come. -/
def start (clients : Clientset) (rs : List Repository) : Builds :=
  { clients, stages := rs.map .begun }

theorem step_of_absent (h : s.stages[turn.1]? = none) : s.step turn = s := by
  unfold step
  rw [h]

theorem exists_moves {a : BuildStage} (h : s.stages[turn.1]? = some a) :
    ∃ b clients, a.Moves turn.2 s.clients b clients ∧
      s.step turn = { clients, stages := s.stages.set turn.1 b } := by
  refine ⟨_, _, a.moves_next turn.2 s.clients, ?_⟩
  unfold step
  rw [h]
  rfl

/-! ## Runs -/

/-- The turn, if it is one in which a lookup builds. -/
def builtBy (s : Builds) (turn : ℕ × Surroundings) : List (ℕ × Surroundings) :=
  match s.stages[turn.1]? with
  | some (.missed _) => [turn]
  | _ => []

/-- The turns in which lookups build. -/
def builds (s : Builds) : List (ℕ × Surroundings) → List (ℕ × Surroundings)
  | [] => []
  | turn :: turns => s.builtBy turn ++ (s.step turn).builds turns

/-- How many turns are those of one lookup. -/
def turnsOf (i : ℕ) (turns : List (ℕ × Surroundings)) : ℕ := turns.countP fun turn => turn.1 = i

theorem run_concat (s : Builds) (turns : List (ℕ × Surroundings)) (turn : ℕ × Surroundings) :
    s.run (turns ++ [turn]) = (s.run turns).step turn := by
  simp [run]

theorem builds_concat (s : Builds) (turns : List (ℕ × Surroundings)) (turn : ℕ × Surroundings) :
    s.builds (turns ++ [turn]) = s.builds turns ++ (s.run turns).builtBy turn := by
  induction turns generalizing s with
  | nil => exact List.append_nil _
  | cons first turns ih =>
    change s.builtBy first ++ (s.step first).builds (turns ++ [turn]) = _
    rw [ih, ← List.append_assoc]
    rfl

theorem turnsOf_concat (i : ℕ) (turns : List (ℕ × Surroundings)) (turn : ℕ × Surroundings) :
    turnsOf i (turns ++ [turn]) = turnsOf i turns + if turn.1 = i then 1 else 0 := by
  simp [turnsOf, List.countP_append, List.countP_singleton]

theorem fst_of_mem_builtBy {g : ℕ × Surroundings} (h : g ∈ s.builtBy turn) : g = turn := by
  unfold builtBy at h
  split at h
  · exact List.mem_singleton.1 h
  · cases h

/-! ## Where a lookup stands -/

/-- The client was kept before, or was built in a lookup for the same name and specification. -/
def IsLikeOwn (old : Clientset) (rs : List Repository) (log : List (ℕ × Surroundings))
    (name : String) (e : ClientEntry) : Prop :=
  old.entries.get? name = some e ∨
    ∃ i env r, (i, env) ∈ log ∧ rs[i]? = some r ∧ r.name = name ∧ r.spec = e.spec ∧
      clientOf env r = .ok e.client.client

/-- The lookup at `i`, which is for `r`, after `n` turns of its own. -/
def Stands (old : Clientset) (rs : List Repository) (log : List (ℕ × Surroundings)) (i : ℕ)
    (r : Repository) (n : ℕ) : BuildStage → Prop
  | .begun r' => r' = r ∧ n = 0 ∧ i ∉ log.map Prod.fst
  | .missed r' => r' = r ∧ n = 1 ∧ i ∉ log.map Prod.fst
  | .built r' result => r' = r ∧ n = 2 ∧ ∃ env, (i, env) ∈ log ∧ clientOf env r = result
  | .found (.built c) => IsLikeOwn old rs log r.name { client := c, spec := r.spec }
  | .found (.failing e) => ∃ env, (i, env) ∈ log ∧ clientOf env r = .error e

variable {old : Clientset} {rs : List Repository} {log : List (ℕ × Surroundings)}

theorem IsLikeOwn.append {name : String} {e : ClientEntry} (h : IsLikeOwn old rs log name e)
    (more : List (ℕ × Surroundings)) : IsLikeOwn old rs (log ++ more) name e := by
  rcases h with h | ⟨i, env, r, hg, h⟩
  · exact .inl h
  · exact .inr ⟨i, env, r, List.mem_append_left _ hg, h⟩

/-- Builds of others change nothing about a lookup. -/
theorem Stands.append {i : ℕ} {r : Repository} {n : ℕ} {stage : BuildStage}
    (h : Stands old rs log i r n stage) {more : List (ℕ × Surroundings)}
    (hmore : i ∉ more.map Prod.fst) : Stands old rs (log ++ more) i r n stage := by
  have hnot (hi : i ∉ log.map Prod.fst) : i ∉ (log ++ more).map Prod.fst := by
    rw [List.map_append, List.mem_append]
    exact fun hmem => hmem.elim hi hmore
  cases stage with
  | begun r' => exact ⟨h.1, h.2.1, hnot h.2.2⟩
  | missed r' => exact ⟨h.1, h.2.1, hnot h.2.2⟩
  | built r' result =>
    obtain ⟨hr, hn, env, hg, hresult⟩ := h
    exact ⟨hr, hn, env, List.mem_append_left _ hg, hresult⟩
  | found ref =>
    cases ref with
    | built c => exact IsLikeOwn.append h more
    | failing e =>
      obtain ⟨env, hg, he⟩ := h
      exact ⟨env, List.mem_append_left _ hg, he⟩

/-- Lookups for `rs` after `turns`, with the builds of `log` among them. -/
structure IsUnderway (old : Clientset) (rs : List Repository) (turns log : List (ℕ × Surroundings))
    (s : Builds) : Prop where
  length : s.stages.length = rs.length
  once : (log.map Prod.fst).Nodup
  entry : ∀ name e, s.clients.entries.get? name = some e → IsLikeOwn old rs log name e
  stands : ∀ i r stage, rs[i]? = some r → s.stages[i]? = some stage →
    Stands old rs log i r (turnsOf i turns) stage

theorem isUnderway_start (old : Clientset) (rs : List Repository) :
    IsUnderway old rs [] [] (start old rs) where
  length := List.length_map _
  once := .nil
  entry _ _ he := .inl he
  stands i r stage hr hstage := by
    unfold start at hstage
    rw [List.getElem?_map, hr] at hstage
    obtain rfl := Option.some.inj hstage
    exact ⟨rfl, rfl, List.not_mem_nil⟩

variable {turns : List (ℕ × Surroundings)}

/-- The lookup whose turn it is. -/
theorem IsUnderway.stands_next (h : IsUnderway old rs turns log s) {r : Repository}
    {a b : BuildStage} {clients : Clientset} (hr : rs[turn.1]? = some r) (ha : s.stages[turn.1]? = some a)
    (hmoves : a.Moves turn.2 s.clients b clients) :
    Stands old rs (log ++ s.builtBy turn) turn.1 r (turnsOf turn.1 turns + 1) b := by
  have hstands := h.stands turn.1 r a hr ha
  have hkept {c : NumberedClient} (hc : s.clients.clientFor r = some c) :
      IsLikeOwn old rs (log ++ s.builtBy turn) r.name { client := c, spec := r.spec } := by
    obtain ⟨e, he, hspec, rfl⟩ := exists_of_clientFor hc
    have hentry := (h.entry r.name e he).append (s.builtBy turn)
    rw [← hspec]
    exact hentry
  cases hmoves with
  | hit hc =>
    obtain ⟨rfl, -⟩ := hstands
    exact hkept hc
  | miss hc =>
    obtain ⟨rfl, hn, hnot⟩ := hstands
    have hnone : s.builtBy turn = [] := by
      unfold builtBy
      rw [ha]
    rw [hn, hnone, List.append_nil]
    exact ⟨rfl, rfl, hnot⟩
  | build =>
    obtain ⟨rfl, hn, -⟩ := hstands
    have hone : s.builtBy turn = [turn] := by
      unfold builtBy
      rw [ha]
    rw [hn, hone]
    exact ⟨rfl, rfl, turn.2, List.mem_append_right _ (List.mem_singleton_self _), rfl⟩
  | adopt hc =>
    obtain ⟨rfl, -⟩ := hstands
    exact hkept hc
  | keep hc =>
    obtain ⟨rfl, -, env, hg, hok⟩ := hstands
    exact .inr ⟨turn.1, env, _, List.mem_append_left _ hg, hr, rfl, rfl, hok⟩
  | fail hc =>
    obtain ⟨rfl, -, env, hg, herror⟩ := hstands
    exact ⟨env, List.mem_append_left _ hg, herror⟩
  | @rest ref =>
    cases ref with
    | built c => exact IsLikeOwn.append hstands _
    | failing e =>
      obtain ⟨env, hg, he⟩ := hstands
      exact ⟨env, List.mem_append_left _ hg, he⟩

theorem IsUnderway.once_append (h : IsUnderway old rs turns log s) (turn : ℕ × Surroundings) :
    ((log ++ s.builtBy turn).map Prod.fst).Nodup := by
  unfold builtBy
  split
  · next r hstage =>
    have hlt : turn.1 < rs.length := h.length ▸ (List.getElem?_eq_some_iff.1 hstage).1
    obtain ⟨-, -, hnot⟩ := h.stands turn.1 _ _ (List.getElem?_eq_getElem hlt) hstage
    rw [List.map_append]
    exact h.once.append (List.nodup_singleton _) (List.disjoint_singleton.2 hnot)
  · rw [List.append_nil]
    exact h.once

theorem IsUnderway.step (h : IsUnderway old rs turns log s) (turn : ℕ × Surroundings) :
    IsUnderway old rs (turns ++ [turn]) (log ++ s.builtBy turn) (s.step turn) := by
  have hothers {i : ℕ} (hi : i ≠ turn.1) : i ∉ (s.builtBy turn).map Prod.fst := by
    rintro hmem
    obtain ⟨g, hg, rfl⟩ := List.mem_map.1 hmem
    exact hi (congrArg Prod.fst (fst_of_mem_builtBy hg))
  have hstays {i : ℕ} {r : Repository} {stage : BuildStage} (hi : i ≠ turn.1)
      (hr : rs[i]? = some r) (hstage : s.stages[i]? = some stage) :
      Stands old rs (log ++ s.builtBy turn) i r (turnsOf i (turns ++ [turn])) stage := by
    rw [turnsOf_concat, if_neg hi.symm]
    exact (h.stands i r stage hr hstage).append (hothers hi)
  cases ha : s.stages[turn.1]? with
  | none =>
    rw [step_of_absent ha]
    refine ⟨h.length, h.once_append turn, fun name e he => (h.entry name e he).append _, ?_⟩
    intro i r stage hr hstage
    refine hstays ?_ hr hstage
    rintro rfl
    rw [ha] at hstage
    cases hstage
  | some a =>
    obtain ⟨b, clients, hmoves, hstep⟩ := exists_moves ha
    have hlt : turn.1 < s.stages.length := (List.getElem?_eq_some_iff.1 ha).1
    obtain ⟨r, hr⟩ : ∃ r, rs[turn.1]? = some r :=
      ⟨_, List.getElem?_eq_getElem (h.length ▸ hlt)⟩
    rw [hstep]
    refine ⟨(List.length_set ..).trans h.length, h.once_append turn, fun name e he => ?_, ?_⟩
    · rcases hmoves.entry he with hold | ⟨r', rfl, hname, hspec⟩
      · exact (h.entry name e hold).append _
      · obtain ⟨rfl, -, env, hg, hok⟩ := h.stands turn.1 r _ hr ha
        exact .inr ⟨turn.1, env, _, List.mem_append_left _ hg, hr, hname, hspec, hok⟩
    · intro i r' stage hr' hstage
      by_cases hi : i = turn.1
      · subst hi
        rw [List.getElem?_set_self hlt] at hstage
        obtain rfl := Option.some.inj hstage
        obtain rfl := Option.some.inj (hr.symm.trans hr')
        rw [turnsOf_concat, if_pos rfl]
        exact h.stands_next hr ha hmoves
      · rw [List.getElem?_set_ne (Ne.symm hi)] at hstage
        exact hstays hi hr' hstage

theorem isUnderway_run (old : Clientset) (rs : List Repository) (turns : List (ℕ × Surroundings)) :
    IsUnderway old rs turns ((start old rs).builds turns) ((start old rs).run turns) := by
  induction turns using List.reverseRecOn with
  | nil => exact isUnderway_start old rs
  | append_singleton turns turn ih =>
    rw [builds_concat, run_concat]
    exact ih.step turn

theorem IsUnderway.exists_found (h : IsUnderway old rs turns log s) {i : ℕ} {r : Repository}
    (hr : rs[i]? = some r) (hturns : 3 ≤ turnsOf i turns) :
    ∃ ref, s.stages[i]? = some (.found ref) := by
  have hlt : i < s.stages.length := h.length ▸ (List.getElem?_eq_some_iff.1 hr).1
  have hstage := List.getElem?_eq_getElem hlt
  have hstands := h.stands i r _ hr hstage
  rw [hstage]
  cases hs : s.stages[i] with
  | found ref => exact ⟨ref, rfl⟩
  | _ =>
    rw [hs] at hstands
    obtain ⟨-, hn, -⟩ := hstands
    omega

/-! ## Lookups for one specification -/

/-- Every client that has been found is the one that is kept. -/
def Agree (name : String) (spec : RepositorySpec) (s : Builds) : Prop :=
  ∀ (i : ℕ) ref, s.stages[i]? = some (.found ref) →
    ∃ c, ref = .built c ∧ s.clients.entries.get? name = some { client := c, spec }

theorem agree_start (old : Clientset) (rs : List Repository) (name : String)
    (spec : RepositorySpec) : Agree name spec (start old rs) := by
  intro i ref hfound
  unfold start at hfound
  rw [List.getElem?_map] at hfound
  obtain ⟨r, -, hr⟩ := Option.map_eq_some_iff.1 hfound
  cases hr

variable {name : String} {spec : RepositorySpec}

/-- While nothing of the specification is kept, nobody has found a client. -/
theorem Agree.not_found (h : Agree name spec s) {r : Repository} (hname : r.name = name)
    (hspec : r.spec = spec) (hnone : s.clients.clientFor r = none) (i : ℕ) (ref : ClientRef) :
    s.stages[i]? ≠ some (.found ref) := by
  intro hfound
  obtain ⟨c, -, he⟩ := h i ref hfound
  rw [clientFor_eq_some (hname ▸ he) hspec.symm] at hnone
  cases hnone

theorem IsUnderway.agree_step (h : IsUnderway old rs turns log s) (hagree : Agree name spec s)
    (same : ∀ r ∈ rs, r.name = name ∧ r.spec = spec)
    (succeed : ∀ i env r, (i, env) ∈ log → rs[i]? = some r → ∃ c, clientOf env r = .ok c) :
    Agree name spec (s.step turn) := by
  cases ha : s.stages[turn.1]? with
  | none => exact (step_of_absent ha).symm ▸ hagree
  | some a =>
    obtain ⟨b, clients, hmoves, hstep⟩ := exists_moves ha
    have hlt : turn.1 < s.stages.length := (List.getElem?_eq_some_iff.1 ha).1
    obtain ⟨r, hr⟩ : ∃ r, rs[turn.1]? = some r :=
      ⟨_, List.getElem?_eq_getElem (h.length ▸ hlt)⟩
    obtain ⟨hname, hspec⟩ := same r (List.mem_of_getElem? hr)
    have hstands := h.stands turn.1 r a hr ha
    -- it is enough that what others have found is still kept, and that this one finds the same
    suffices hkept : (∀ (i : ℕ) ref, s.stages[i]? = some (.found ref) →
        clients.entries.get? name = s.clients.entries.get? name) ∧
        ∀ ref, b = .found ref →
          ∃ c, ref = .built c ∧ clients.entries.get? name = some { client := c, spec } by
      intro i ref hfound
      rw [hstep] at hfound ⊢
      by_cases hi : i = turn.1
      · subst hi
        rw [List.getElem?_set_self hlt] at hfound
        exact hkept.2 ref (Option.some.inj hfound)
      · rw [List.getElem?_set_ne (Ne.symm hi)] at hfound
        obtain ⟨c, hc, he⟩ := hagree i ref hfound
        exact ⟨c, hc, (hkept.1 i ref hfound).trans he⟩
    cases hmoves with
    | miss => exact ⟨fun _ _ _ => rfl, fun ref href => (by cases href)⟩
    | build => exact ⟨fun _ _ _ => rfl, fun ref href => (by cases href)⟩
    | rest =>
      refine ⟨fun _ _ _ => rfl, fun ref href => ?_⟩
      exact hagree turn.1 ref (href ▸ ha)
    | hit hc | adopt hc =>
      refine ⟨fun _ _ _ => rfl, fun ref href => ?_⟩
      obtain ⟨rfl, -⟩ := hstands
      obtain ⟨e, he, hown, rfl⟩ := exists_of_clientFor hc
      rw [hname] at he
      exact ⟨e.client, (BuildStage.found.inj href).symm, by rw [he, ← hspec, ← hown]⟩
    | keep hnone =>
      obtain ⟨rfl, -⟩ := hstands
      refine ⟨fun i ref hfound => absurd hfound (hagree.not_found hname hspec hnone i ref),
        fun ref href => ⟨_, (BuildStage.found.inj href).symm, ?_⟩⟩
      rw [← hname, ← hspec]
      exact (TextMap.get?_insert ..).trans (if_pos rfl)
    | fail hnone =>
      obtain ⟨rfl, -, env, hg, herror⟩ := hstands
      obtain ⟨c, hok⟩ := succeed turn.1 env _ hg hr
      rw [hok] at herror
      cases herror

theorem agree_run (old : Clientset) (same : ∀ r ∈ rs, r.name = name ∧ r.spec = spec)
    (turns : List (ℕ × Surroundings)) :
    (∀ i env r, (i, env) ∈ (start old rs).builds turns → rs[i]? = some r →
      ∃ c, clientOf env r = .ok c) → Agree name spec ((start old rs).run turns) := by
  induction turns using List.reverseRecOn with
  | nil => exact fun _ => agree_start old rs name spec
  | append_singleton turns turn ih =>
    intro succeed
    have hbefore (i : ℕ) (env : Surroundings) (r : Repository)
        (hg : (i, env) ∈ (start old rs).builds turns) (hr : rs[i]? = some r) :
        ∃ c, clientOf env r = .ok c := by
      refine succeed i env r ?_ hr
      rw [builds_concat]
      exact List.mem_append_left _ hg
    rw [run_concat]
    exact (isUnderway_run old rs turns).agree_step (ih hbefore) same hbefore

/-- Lookups in any number and order of steps, in surroundings that may change from step to step.
Each builds at most once and ends after three steps of its own, with a client that was built from
its specification, before or in one of the lookups, or with the error of what it built itself. Where
all have one name and specification and none fails to build, all find the one client that is kept. -/
theorem lookups_find_their_own (history : History) (rs : List Repository)
    (turns : List (ℕ × Surroundings)) :
    let log := (start (through {} history) rs).builds turns
    let s := (start (through {} history) rs).run turns
    (log.map Prod.fst).Nodup ∧
    (∀ (i : ℕ) r, rs[i]? = some r → 3 ≤ turnsOf i turns →
      ∃ ref, s.stages[i]? = some (.found ref)) ∧
    (∀ (i : ℕ) r c, rs[i]? = some r → s.stages[i]? = some (.found (.built c)) →
      IsBuiltIn {} history r.name { client := c, spec := r.spec } ∨
        ∃ (j : ℕ) (env : Surroundings) (r' : Repository), (j, env) ∈ log ∧ rs[j]? = some r' ∧
          r'.name = r.name ∧ r'.spec = r.spec ∧ clientOf env r' = .ok c.client) ∧
    (∀ (i : ℕ) r e, rs[i]? = some r → s.stages[i]? = some (.found (.failing e)) →
      ∃ env, (i, env) ∈ log ∧ clientOf env r = .error e) ∧
    ∀ name spec, (∀ r ∈ rs, r.name = name ∧ r.spec = spec) →
      (∀ i env r, (i, env) ∈ log → rs[i]? = some r → ∃ c, clientOf env r = .ok c) →
      ∀ (i : ℕ) ref, s.stages[i]? = some (.found ref) →
        ∃ c, s.clients.entries.get? name = some { client := c, spec } ∧
          ∀ (j : ℕ) ref', s.stages[j]? = some (.found ref') → ref' = .built c := by
  intro log s
  have hrun : IsUnderway (through {} history) rs turns log s := isUnderway_run _ rs turns
  refine ⟨hrun.once, fun i r hr => hrun.exists_found hr, fun i r c hr hfound => ?_,
    fun i r e hr hfound => hrun.stands i r _ hr hfound, ?_⟩
  · rcases hrun.stands i r _ hr hfound with hold | ⟨j, env, r', hg, hr', hname, hspec, hok⟩
    · rcases entry_through {} history hold with hempty | hbuilt
      · cases hempty
      · exact .inl hbuilt
    · exact .inr ⟨j, env, r', hg, hr', hname, hspec, hok⟩
  · intro name spec same succeed i ref hfound
    have hagree : Agree name spec s := agree_run _ same turns succeed
    obtain ⟨c, -, he⟩ := hagree i ref hfound
    refine ⟨c, he, fun j ref' hfound' => ?_⟩
    obtain ⟨c', rfl, he'⟩ := hagree j ref' hfound'
    obtain rfl : c' = c := congrArg ClientEntry.client (Option.some.inj (he'.symm.trans he))
    rfl

/-- Two lookups that both find nothing and both build; the second takes what the first has kept. -/
theorem lookups_find_their_own_both_built :
    let r : Repository := { metadata := { name := "r" }, spec := { url := "http://h" } }
    let env : Surroundings :=
      { settings := {}, source := ({} : Inventory).toSource, web := fun _ => .unreachable }
    let built : RepoClient := { baseUrl := "http://h", auth := .anonymous, maxCacheAge := .ofSeconds 300 }
    let c : NumberedClient := { number := 0, client := built }
    let turns : List (ℕ × Surroundings) := [(0, env), (1, env), (0, env), (1, env), (0, env), (1, env)]
    (start (through {} []) [r, r]).builds turns = [(0, env), (1, env)] ∧
    ((start (through {} []) [r, r]).run turns).stages = [.found (.built c), .found (.built c)] ∧
    (IsBuiltIn {} [] r.name { client := c, spec := r.spec } ∨
      ∃ (j : ℕ) (env' : Surroundings) (r' : Repository),
        (j, env') ∈ (start (through {} []) [r, r]).builds turns ∧ [r, r][j]? = some r' ∧
          r'.name = r.name ∧ r'.spec = r.spec ∧ clientOf env' r' = .ok built) ∧
    ((start (through {} []) [r, r]).run turns).clients.entries.get? r.name =
      some { client := c, spec := r.spec } := by
  intro r env built c turns
  have hlog : (start (through {} []) [r, r]).builds turns = [(0, env), (1, env)] := rfl
  have hcreate : RepoClient.create "http://h" .anonymous (.ofSeconds 300) = .ok built := rfl
  have hclient : clientOf env r = .ok built := (clientOf_of_auth_none rfl).trans hcreate
  have hbuilt : (start (through {} []) [r, r]).run (turns.take 4) =
      { clients := {}, stages := [.built r (clientOf env r), .built r (clientOf env r)] } := rfl
  have hstages : ((start (through {} []) [r, r]).run turns).stages =
      [.found (.built c), .found (.built c)] := by
    have hturns : turns = turns.take 4 ++ [(0, env)] ++ [(1, env)] := rfl
    rw [hturns, run_concat, run_concat, hbuilt, hclient]
    rfl
  have hrepo : ∀ r' ∈ [r, r], r' = r := by simp
  have hfirst : ((start (through {} []) [r, r]).run turns).stages[0]? = some (.found (.built c)) := by
    rw [hstages]
    rfl
  have hsecond : ((start (through {} []) [r, r]).run turns).stages[1]? = some (.found (.built c)) := by
    rw [hstages]
    rfl
  have hsame : ∀ r' ∈ [r, r], r'.name = r.name ∧ r'.spec = r.spec := by
    intro r' hr'
    rw [hrepo r' hr']
    exact ⟨rfl, rfl⟩
  have hsucceed (i : ℕ) (env' : Surroundings) (r' : Repository)
      (hg : (i, env') ∈ (start (through {} []) [r, r]).builds turns) (hr : [r, r][i]? = some r') :
      ∃ c, clientOf env' r' = .ok c := by
    obtain rfl : env' = env := by
      rw [hlog] at hg
      simp only [List.mem_cons, Prod.mk.injEq, List.not_mem_nil, or_false] at hg
      exact hg.elim And.right And.right
    rw [hrepo r' (List.mem_of_getElem? hr)]
    exact ⟨built, hclient⟩
  obtain ⟨-, -, hown, -, hone⟩ := lookups_find_their_own [] [r, r] turns
  obtain ⟨c', hkept, hall⟩ := hone r.name r.spec hsame hsucceed 0 (.built c) hfirst
  obtain rfl : c = c' := ClientRef.built.inj (hall 1 (.built c) hsecond)
  exact ⟨hlog, hstages, hown 1 r c rfl hsecond, hkept⟩

end Builds
end ClusterPackages.Clientset
