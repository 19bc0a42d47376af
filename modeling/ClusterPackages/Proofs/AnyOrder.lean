import ClusterPackages.Aggregate.AtOnce
import ClusterPackages.Proofs.ConcurrentBuilds
import ClusterPackages.Proofs.Merging

/-! The order of repositories never shows. All that is made of a list of repositories is made in the
order of their names. Repositories that are asked side by side leave each other's entries alone,
so however their steps interleave, each answers what it answers alone, and the same names are kept
with the same specifications. -/

namespace ClusterPackages

open Clientset

namespace Clientset

/-! ## What is held under a name -/

/-- The entry of a name, and the catalog that its client keeps. -/
def held (s : Clientset) (name : String) : Option (ClientEntry × Option Catalog) :=
  (s.entries.get? name).map fun e => (e, (s.catalogs[e.client.number]?).join)

variable {s : Clientset} {name : String}

theorem held_of_get? {e : ClientEntry} (he : s.entries.get? name = some e) :
    s.held name = some (e, (s.catalogs[e.client.number]?).join) := by
  unfold held
  rw [he]
  rfl

theorem map_spec_held (s : Clientset) (name : String) :
    (s.held name).map (fun h => h.1.spec) = (s.entries.get? name).map (·.spec) := by
  unfold held
  rw [Option.map_map]
  rfl

theorem keptFor_eq_held (s : Clientset) (r : Repository) :
    s.keptFor r = (s.held r.name).bind fun h =>
      if h.1.spec = r.spec then some (h.1.client.client, h.2) else none := by
  unfold keptFor clientFor held
  cases s.entries.get? r.name with
  | none => rfl
  | some e =>
    simp only [Option.bind_some, Option.map_some]
    split_ifs <;> rfl

theorem keptFor_of_held {s t : Clientset} {r : Repository} (h : t.held r.name = s.held r.name) :
    t.keptFor r = s.keptFor r := by
  rw [keptFor_eq_held, keptFor_eq_held, h]

theorem held_withClient (s : Clientset) (r : Repository) (c : RepoClient) :
    (s.withClient r c).held r.name =
      some ({ client := { number := s.catalogs.length, client := c }, spec := r.spec }, none) := by
  have he : (s.withClient r c).entries.get? r.name =
      some { client := { number := s.catalogs.length, client := c }, spec := r.spec } :=
    (TextMap.get?_insert ..).trans (if_pos rfl)
  rw [held_of_get? he]
  unfold withClient
  dsimp only
  rw [List.getElem?_concat_length]
  rfl

theorem held_erase (s : Clientset) (name : String) :
    { s with entries := s.entries.erase name }.held name = none := by
  have he : (s.entries.erase name).get? name = none := by rw [TextMap.get?_erase, if_pos rfl]
  unfold held
  rw [he]
  rfl

section

variable {other : String} (hne : other ≠ name)
include hne

theorem IsSound.held_withClient_of_ne (hs : IsSound s) {r : Repository} (hr : r.name = name)
    (c : RepoClient) : (s.withClient r c).held other = s.held other := by
  have he : (s.withClient r c).entries.get? other = s.entries.get? other :=
    (TextMap.get?_insert ..).trans (if_neg (hr ▸ hne))
  unfold held
  rw [he]
  cases hget : s.entries.get? other with
  | none => rfl
  | some e =>
    unfold Clientset.withClient
    dsimp only [Option.map_some]
    rw [List.getElem?_append_left (hs.inRange other e hget)]

theorem held_erase_of_ne (s : Clientset) :
    { s with entries := s.entries.erase name }.held other = s.held other := by
  have he : (s.entries.erase name).get? other = s.entries.get? other := by
    rw [TextMap.get?_erase, if_neg hne]
  unfold held
  rw [he]

theorem IsSound.held_setCatalog_of_ne (hs : IsSound s) {e : ClientEntry}
    (he : s.entries.get? name = some e) (kept : Option Catalog) :
    { s with catalogs := s.catalogs.set e.client.number kept }.held other = s.held other := by
  unfold held
  dsimp only
  cases hget : s.entries.get? other with
  | none => rfl
  | some e' =>
    have hnumber : e.client.number ≠ e'.client.number :=
      fun heq => hne (hs.apart _ _ e e' he hget heq).symm
    rw [Option.map_some, Option.map_some, List.getElem?_set_ne hnumber]

end

/-! ## What a lookup gives -/

/-- What is kept for a repository once it has been looked up. -/
def keptAfter (env : Surroundings) (s : Clientset) (r : Repository) :
    Option (RepoClient × Option Catalog) :=
  (s.keptFor r).or ((clientOf env r).toOption.map fun c => (c, none))

variable {env : Surroundings} {α : Type} {op : RepoClient → Call α} {r : Repository}

theorem outcome_of_keptAfter (hop : IgnoresRequests op) {c : RepoClient} {kept : Option Catalog}
    (h : keptAfter env s r = some (c, kept)) (requests : List Request) :
    ((op c).run { catalog := kept, requests }).1 = outcome env op s r := by
  rw [outcome_eq]
  unfold keptAfter at h
  cases hkept : s.keptFor r with
  | some p =>
    rw [hkept] at h
    obtain rfl := Option.some.inj h
    exact hop c { catalog := kept, requests := s.requests } requests
  | none =>
    rw [hkept] at h
    cases hclient : clientOf env r with
    | error e =>
      rw [hclient] at h
      cases h
    | ok c' =>
      rw [hclient] at h
      obtain ⟨rfl, rfl⟩ := Prod.mk.inj (Option.some.inj h)
      exact hop c' { requests := s.requests } requests

theorem outcome_of_error {e : RepoError} (hkept : s.keptFor r = none)
    (hclient : clientOf env r = .error e) : outcome env op s r = .error e := by
  rw [outcome_eq, hkept, hclient]
  rfl

theorem BuildStage.Moves.isSound {a b : BuildStage} {t : Clientset} (h : a.Moves env s b t)
    (hs : IsSound s) : IsSound t := by
  cases h with
  | build => exact ⟨hs.inRange, hs.apart⟩
  | keep => exact hs.withClient _ _
  | fail => exact hs.erase _
  | _ => exact hs

end Clientset

namespace Aggregate

variable {env : Surroundings} {α : Type} {op : RepoClient → Call α}

/-! ## Steps -/

/-- A step of a repository: from where it goes to where, and the client set then. -/
inductive AskStage.Moves (env : Surroundings) (op : RepoClient → Call α) (s : Clientset) :
    AskStage α → AskStage α → Clientset → Prop
  | look {a b : BuildStage} {t : Clientset} (h : a.Moves env s b t)
      (unfound : ∀ ref, a ≠ .found ref) : Moves env op s (.looking a) (.looking b) t
  | call {ref : ClientRef} :
      Moves env op s (.looking (.found ref)) (.answered ((Clientset.call ref op).run s).1)
        ((Clientset.call ref op).run s).2
  | rest {x : Except RepoError α} : Moves env op s (.answered x) (.answered x) s

theorem AskStage.moves_next (a : AskStage α) (s : Clientset) :
    Moves env op s a ((a.next env op).run s).1 ((a.next env op).run s).2 := by
  cases a with
  | answered x => exact .rest
  | looking stage =>
    have hmoves := stage.moves_next env s
    cases stage with
    | found ref => exact .call
    | _ => exact .look hmoves (by simp)

theorem AskStage.Moves.isSound {s t : Clientset} {a b : AskStage α} (h : a.Moves env op s b t)
    (hs : IsSound s) : IsSound t := by
  cases h with
  | look h => exact h.isSound hs
  | call => exact call_keeps (isInvariant_isSound env) _ op s hs
  | rest => exact hs

theorem AskStage.built_next_run {s : Clientset} {r : Repository} (h : s.clientFor r = none)
    (result : Except RepoError RepoClient) :
    ((AskStage.looking (.built r result)).next env op).run s =
      (.looking (.found (takenIn s r result).1), (takenIn s r result).2) := by
  change (AskStage.looking (.found ((takeIn r result).run s).1), ((takeIn r result).run s).2) = _
  rw [takeIn_run, h]

/-! ## Where a repository stands -/

/-- A repository that is asked, when `now` is held under its name; `s` is what they began with. -/
def AskStage.Stands (env : Surroundings) (op : RepoClient → Call α) (s : Clientset) (r : Repository)
    (now : Option (ClientEntry × Option Catalog)) : AskStage α → Prop
  | .looking (.begun r') => r' = r ∧ now = s.held r.name
  | .looking (.missed r') => r' = r ∧ now = s.held r.name ∧ s.keptFor r = none
  | .looking (.built r' result) =>
    r' = r ∧ now = s.held r.name ∧ s.keptFor r = none ∧ result = clientOf env r
  | .looking (.found (.built c)) =>
    ∃ kept, now = some ({ client := c, spec := r.spec }, kept) ∧
      keptAfter env s r = some (c.client, kept)
  | .looking (.found (.failing e)) =>
    now = none ∧ s.keptFor r = none ∧ clientOf env r = .error e
  | .answered x =>
    x = outcome env op s r ∧
      now.map (fun h => h.1.spec) = (keptAfter env s r).map fun _ => r.spec

variable {s t t' : Clientset} {r : Repository}

theorem keptFor_of_clientFor {c : NumberedClient} (hc : t.clientFor r = some c) :
    ∃ kept, t.held r.name = some ({ client := c, spec := r.spec }, kept) ∧
      t.keptFor r = some (c.client, kept) := by
  obtain ⟨e, he, hspec, rfl⟩ := exists_of_clientFor hc
  refine ⟨_, (held_of_get? he).trans (by rw [← hspec]), ?_⟩
  unfold keptFor
  rw [hc]
  rfl

theorem keptFor_of_not_clientFor (hc : t.clientFor r = none) : t.keptFor r = none := by
  unfold keptFor
  rw [hc]
  rfl

/-- A step of a repository leaves what is held under other names. -/
theorem AskStage.Stands.move (hop : IgnoresRequests op) {a b : AskStage α} (ht : IsSound t)
    (hstands : a.Stands env op s r (t.held r.name)) (h : a.Moves env op t b t') :
    b.Stands env op s r (t'.held r.name) ∧
      ∀ name, name ≠ r.name → t'.held name = t.held name := by
  cases h with
  | rest => exact ⟨hstands, fun _ _ => rfl⟩
  | look h unfound =>
    cases h with
    | hit hc =>
      obtain ⟨rfl, hsame⟩ := hstands
      obtain ⟨kept, hheld, hkept⟩ := keptFor_of_clientFor hc
      refine ⟨⟨kept, hheld, ?_⟩, fun _ _ => rfl⟩
      unfold keptAfter
      rw [← keptFor_of_held hsame, hkept]
      rfl
    | miss hc =>
      obtain ⟨rfl, hsame⟩ := hstands
      refine ⟨⟨rfl, hsame, ?_⟩, fun _ _ => rfl⟩
      rw [← keptFor_of_held hsame]
      exact keptFor_of_not_clientFor hc
    | build =>
      obtain ⟨rfl, hsame, hnone⟩ := hstands
      exact ⟨⟨rfl, hsame, hnone, rfl⟩, fun _ _ => rfl⟩
    | adopt hc =>
      -- nobody else keeps anything under this name
      obtain ⟨rfl, hsame, hnone, -⟩ := hstands
      obtain ⟨kept, -, hkept⟩ := keptFor_of_clientFor hc
      rw [keptFor_of_held hsame, hnone] at hkept
      cases hkept
    | keep hc =>
      obtain ⟨rfl, hsame, hnone, hclient⟩ := hstands
      refine ⟨⟨none, held_withClient t _ _, ?_⟩, fun name hne => ht.held_withClient_of_ne hne rfl _⟩
      unfold keptAfter
      rw [hnone, ← hclient]
      rfl
    | fail hc =>
      obtain ⟨rfl, hsame, hnone, hclient⟩ := hstands
      exact ⟨⟨held_erase t _, hnone, hclient.symm⟩, fun name hne => held_erase_of_ne hne t⟩
    | @rest ref => exact absurd rfl (unfound ref)
  | @call ref =>
    cases ref with
    | failing e =>
      obtain ⟨hnow, hnone, hclient⟩ := hstands
      refine ⟨⟨(outcome_of_error hnone hclient).symm, ?_⟩, fun _ _ => rfl⟩
      have hafter : keptAfter env s r = none := by
        unfold keptAfter
        rw [hnone, hclient]
        rfl
      change (t.held r.name).map _ = _
      rw [hnow, hafter]
      rfl
    | built c =>
      obtain ⟨kept, hnow, hafter⟩ := hstands
      obtain ⟨e, he, hheld⟩ := Option.map_eq_some_iff.1 hnow
      obtain ⟨rfl, rfl⟩ := Prod.mk.inj hheld
      rw [call_run_built]
      refine ⟨⟨outcome_of_keptAfter hop hafter t.requests, ?_⟩, fun name hne => ?_⟩
      · rw [map_spec_held, hafter]
        change (t.entries.get? r.name).map _ = _
        rw [he]
        rfl
      · exact ht.held_setCatalog_of_ne hne he _

/-! ## Runs -/

namespace AtOnce

theorem step_of_absent {now : AtOnce α} {i : ℕ} (h : now.stages[i]? = none) :
    now.step env op i = now := by
  unfold step
  rw [h]

theorem exists_moves (env : Surroundings) (op : RepoClient → Call α) {now : AtOnce α} {i : ℕ}
    {a : AskStage α} (h : now.stages[i]? = some a) :
    ∃ b clients, a.Moves env op now.clients b clients ∧
      now.step env op i = { clients, stages := now.stages.set i b } := by
  refine ⟨_, _, a.moves_next now.clients, ?_⟩
  unfold step
  rw [h]
  rfl

/-- The repositories `rs` are being asked, since the client set was `s`. -/
structure IsUnderway (env : Surroundings) (op : RepoClient → Call α) (s : Clientset)
    (rs : List Repository) (now : AtOnce α) : Prop where
  length : now.stages.length = rs.length
  sound : IsSound now.clients
  others : ∀ name, name ∉ rs.map Repository.name → now.clients.held name = s.held name
  stands : ∀ (i : ℕ) r a, rs[i]? = some r → now.stages[i]? = some a →
    a.Stands env op s r (now.clients.held r.name)

theorem isUnderway_start (env : Surroundings) (op : RepoClient → Call α) (hs : IsSound s)
    (rs : List Repository) : IsUnderway env op s rs (start s rs) where
  length := List.length_map _
  sound := hs
  others _ _ := rfl
  stands i r a hr ha := by
    unfold start at ha
    rw [List.getElem?_map, hr] at ha
    obtain rfl := Option.some.inj ha
    exact ⟨rfl, rfl⟩

section

variable {rs : List Repository} (distinct : (rs.map Repository.name).Nodup)
include distinct

theorem IsUnderway.step (hop : IgnoresRequests op) {now : AtOnce α}
    (h : IsUnderway env op s rs now) (i : ℕ) : IsUnderway env op s rs (now.step env op i) := by
  cases ha : now.stages[i]? with
  | none => exact (step_of_absent ha).symm ▸ h
  | some a =>
    obtain ⟨b, clients, hmoves, hstep⟩ := exists_moves env op ha
    have hlt : i < now.stages.length := (List.getElem?_eq_some_iff.1 ha).1
    have hi : i < rs.length := h.length ▸ hlt
    obtain ⟨hown, hothers⟩ :=
      (h.stands i rs[i] a (List.getElem?_eq_getElem hi) ha).move hop h.sound hmoves
    have hmem : rs[i].name ∈ rs.map Repository.name := List.mem_map_of_mem (List.getElem_mem hi)
    rw [hstep]
    refine ⟨List.length_set.trans h.length, hmoves.isSound h.sound, fun name hname => ?_, ?_⟩
    · have hne : name ≠ rs[i].name := fun heq => hname (heq ▸ hmem)
      exact (hothers name hne).trans (h.others name hname)
    · intro j r a' hr ha'
      by_cases hj : j = i
      · subst hj
        rw [List.getElem?_set_self hlt] at ha'
        rw [List.getElem?_eq_getElem hi] at hr
        obtain rfl := Option.some.inj ha'
        obtain rfl := Option.some.inj hr
        exact hown
      · rw [List.getElem?_set_ne (Ne.symm hj)] at ha'
        have hne : r.name ≠ rs[i].name := by
          intro heq
          have hlt' : j < (rs.map Repository.name).length :=
            (List.length_map _).symm ▸ (List.getElem?_eq_some_iff.1 hr).1
          refine hj ((List.getElem?_inj hlt' distinct).1 ?_)
          rw [List.getElem?_map, List.getElem?_map, hr, List.getElem?_eq_getElem hi]
          exact congrArg some heq
        rw [hothers r.name hne]
        exact h.stands j r a' hr ha'

theorem isUnderway_run (hop : IgnoresRequests op) (hs : IsSound s) (turns : List ℕ) :
    IsUnderway env op s rs ((start s rs).run env op turns) := by
  induction turns using List.reverseRecOn with
  | nil => exact isUnderway_start env op hs rs
  | append_singleton turns i ih =>
    have hrun : (start s rs).run env op (turns ++ [i]) =
        ((start s rs).run env op turns).step env op i := by simp [run]
    rw [hrun]
    exact ih.step distinct hop i

end

/-- A set of repositories that is asked side by side can give these answers, and leave `t`. -/
def MayAnswer (env : Surroundings) (op : RepoClient → Call α) (s : Clientset)
    (rs : List Repository) (answers : List (Except RepoError α)) (t : Clientset) : Prop :=
  ∃ turns, (start s rs).run env op turns = { clients := t, stages := answers.map .answered }

section

variable {rs : List Repository} {answers : List (Except RepoError α)}

/-- Once all have answered. -/
theorem MayAnswer.stands (hop : IgnoresRequests op) (hs : IsSound s)
    (distinct : (rs.map Repository.name).Nodup) (h : MayAnswer env op s rs answers t) :
    answers = rs.map (outcome env op s) ∧
      (∀ r ∈ rs, (t.entries.get? r.name).map (·.spec) = (keptAfter env s r).map fun _ => r.spec) ∧
      ∀ name, name ∉ rs.map Repository.name →
        (t.entries.get? name).map (·.spec) = (s.entries.get? name).map (·.spec) := by
  obtain ⟨turns, hrun⟩ := h
  have hunderway : IsUnderway env op s rs ((start s rs).run env op turns) :=
    isUnderway_run distinct hop hs turns
  rw [hrun] at hunderway
  have hlength : answers.length = rs.length := (List.length_map _).symm.trans hunderway.length
  have hstands (i : ℕ) (r : Repository) (x : Except RepoError α) (hr : rs[i]? = some r)
      (hx : answers[i]? = some x) :
      x = outcome env op s r ∧
        (t.held r.name).map (fun h => h.1.spec) = (keptAfter env s r).map fun _ => r.spec := by
    refine hunderway.stands i r (.answered x) hr ?_
    rw [List.getElem?_map, hx]
    rfl
  refine ⟨List.ext_getElem? fun i => ?_, fun r hr => ?_, fun name hname => ?_⟩
  · rw [List.getElem?_map]
    cases hr : rs[i]? with
    | none =>
      rw [Option.map_none, List.getElem?_eq_none_iff, hlength]
      exact List.getElem?_eq_none_iff.1 hr
    | some r =>
      have hlt : i < answers.length := hlength ▸ (List.getElem?_eq_some_iff.1 hr).1
      have hx := List.getElem?_eq_getElem hlt
      rw [hx, (hstands i r _ hr hx).1]
      rfl
  · obtain ⟨i, hi, rfl⟩ := List.getElem_of_mem hr
    have hx := List.getElem?_eq_getElem (hlength ▸ hi : i < answers.length)
    rw [← map_spec_held]
    exact (hstands i _ _ (List.getElem?_eq_getElem hi) hx).2
  · rw [← map_spec_held, ← map_spec_held, hunderway.others name hname]

/-- The next in line takes its step, when those before it are through. -/
theorem step_at (env : Surroundings) (op : RepoClient → Call α) (s : Clientset)
    (through : List (AskStage α)) (a : AskStage α) (rest : List (AskStage α)) :
    step env op { clients := s, stages := through ++ a :: rest } through.length =
      { clients := ((a.next env op).run s).2
        stages := through ++ ((a.next env op).run s).1 :: rest } := by
  have hturn : (through ++ a :: rest)[through.length]? = some a := by simp
  unfold step
  dsimp only
  rw [hturn]
  simp only [List.set_append_right _ _ le_rfl, Nat.sub_self, List.set_cons_zero]
  rfl

theorem step_takeIn (through rest : List (AskStage α)) {s : Clientset} {r : Repository}
    (h : s.clientFor r = none) (result : Except RepoError RepoClient) :
    step env op { clients := s, stages := through ++ .looking (.built r result) :: rest }
      through.length =
        { clients := (takenIn s r result).2
          stages := through ++ .looking (.found (takenIn s r result).1) :: rest } := by
  rw [step_at, AskStage.built_next_run h]

theorem step_call (through rest : List (AskStage α)) (s : Clientset) (c : NumberedClient)
    {answer : Except RepoError α} {t : CallState}
    (h : (op c.client).run (s.callState c) = (answer, t)) :
    step env op { clients := s, stages := through ++ .looking (.found (.built c)) :: rest }
      through.length =
        { clients := { s with
            catalogs := s.catalogs.set c.number t.catalog
            requests := t.requests }
          stages := through ++ .answered answer :: rest } := by
  rw [step_at]
  change ({ clients := ((call (.built c) op).run s).2
            stages := through ++ .answered ((call (.built c) op).run s).1 :: rest } : AtOnce α) = _
  rw [call_run_built, h]

/-- A repository answers as if it were asked alone if it takes all its steps in a row. -/
theorem exists_run_askOne (env : Surroundings) (op : RepoClient → Call α) (s : Clientset)
    (through : List (AskStage α)) (r : Repository) (rest : List (AskStage α)) :
    ∃ turns, run env op { clients := s, stages := through ++ .looking (.begun r) :: rest } turns =
      { clients := ((askOne env op r).run s).2
        stages := through ++ .answered (outcome env op s r) :: rest } := by
  have hnext {b : BuildStage} (hb : ((BuildStage.begun r).next env).run s = (b, s)) :
      (AskStage.next env op (.looking (.begun r))).run s = (.looking b, s) :=
    congrArg (fun p : BuildStage × Clientset => (AskStage.looking p.1, p.2)) hb
  have hone := forRepo_run env r s
  unfold outcome askOne
  rw [StateT.run_bind, hone]
  let i := through.length
  cases hc : s.clientFor r with
  | some c =>
    refine ⟨[i, i], ?_⟩
    have hbegun := hnext (b := .found (.built c)) (by rw [BuildStage.begun_next_run, hc])
    simp only [run, i, List.foldl_cons, List.foldl_nil, step_at, hbegun]
    rfl
  | none =>
    refine ⟨[i, i, i, i], ?_⟩
    have hbegun := hnext (b := .missed r) (by rw [BuildStage.begun_next_run, hc])
    let s' : Clientset := { s with lookups.secrets := s.lookups.secrets + secretReads env r }
    have hmissed : (AskStage.next env op (.looking (.missed r))).run s =
        (.looking (.built r (clientOf env r)), s') := rfl
    have hnone : s'.clientFor r = none := hc
    have hbuilt : (AskStage.next env op (.looking (.built r (clientOf env r)))).run s' =
        (.looking (.found (takenIn s' r (clientOf env r)).1), (takenIn s' r (clientOf env r)).2) :=
      AskStage.built_next_run hnone _
    simp only [run, i, List.foldl_cons, List.foldl_nil, step_at, hbegun, hmissed, hbuilt]
    rfl

/-- The answers one after the other are those that are given if one is through before the next. -/
theorem mayAnswer_askAll (env : Surroundings) (op : RepoClient → Call α) (s : Clientset)
    (rs : List Repository) :
    MayAnswer env op s rs (((askAll env op rs).run s).1.map Prod.snd)
      ((askAll env op rs).run s).2 := by
  suffices hrun : ∀ through : List (AskStage α), ∃ turns,
      run env op { clients := s, stages := through ++ rs.map fun r => .looking (.begun r) } turns =
        { clients := ((askAll env op rs).run s).2
          stages := through ++ (((askAll env op rs).run s).1.map Prod.snd).map .answered } from
    hrun []
  induction rs generalizing s with
  | nil => exact fun through => ⟨[], rfl⟩
  | cons r rs ih =>
    intro through
    obtain ⟨turns, hone⟩ :=
      exists_run_askOne env op s through r (rs.map fun r => .looking (.begun r))
    obtain ⟨turns', hrest⟩ :=
      ih ((askOne env op r).run s).2 (through ++ [.answered (outcome env op s r)])
    refine ⟨turns ++ turns', ?_⟩
    simp only [List.append_assoc, List.cons_append, List.nil_append] at hrest
    unfold run at hone hrest ⊢
    rw [List.foldl_append, List.map_cons, hone, hrest]
    rfl

/-- In whatever order and however mixed, they answer as they do one after the other. -/
theorem MayAnswer.agrees (hop : IgnoresRequests op) (hs : IsSound s)
    (distinct : (rs.map Repository.name).Nodup) {l : List Repository} (hl : l.Perm rs)
    (h : MayAnswer env op s l answers t) :
    l.zip answers = ((askAll env op l).run s).1 ∧
      (l.zip answers).Perm ((askAll env op rs).run s).1 ∧
      ∀ name, (t.entries.get? name).map (·.spec) =
        (((askAll env op rs).run s).2.entries.get? name).map (·.spec) := by
  have hdistinct : (l.map Repository.name).Nodup := (hl.map _).nodup_iff.2 distinct
  obtain ⟨hanswers, hmember, hother⟩ := h.stands hop hs hdistinct
  obtain ⟨-, hmember', hother'⟩ := (mayAnswer_askAll env op s rs).stands hop hs distinct
  have hzip : l.zip answers = l.map fun r => (r, outcome env op s r) := by
    rw [hanswers]
    exact List.map_prod_left_eq_zip.symm
  refine ⟨?_, ?_, fun name => ?_⟩
  · rw [hzip, askAll_run_fst hop hs hdistinct]
  · rw [hzip, askAll_run_fst hop hs distinct]
    exact hl.map _
  · by_cases hname : name ∈ rs.map Repository.name
    · obtain ⟨r, hr, rfl⟩ := List.mem_map.1 hname
      exact (hmember r (hl.symm.subset hr)).trans (hmember' r hr).symm
    · have hname' : name ∉ l.map Repository.name := fun h => hname ((hl.map _).subset h)
      exact (hother name hname').trans (hother' name hname).symm

end

end AtOnce

/-! ## Lists of repositories -/

section

variable {rs rs' : List Repository}

theorem byName_of_perm (h : rs.Perm rs') (distinct : (rs.map Repository.name).Nodup) :
    byName rs = byName rs' := by
  have distinct' : (rs'.map Repository.name).Nodup := (h.map _).nodup_iff.1 distinct
  refine List.Perm.eq_of_pairwise (fun a b _ _ hab hba => absurd hba hab.not_gt)
    (byName_strictlyAscending distinct) (byName_strictlyAscending distinct') ?_
  exact (byName_perm rs).trans (h.trans (byName_perm rs').symm)

theorem mergeSort_of_perm {names names' : List String} (h : names.Perm names') :
    names.mergeSort (· ≤ ·) = names'.mergeSort (· ≤ ·) := by
  refine List.Perm.eq_of_pairwise (fun _ _ _ _ => le_antisymm) (mergeSort_ascending id names)
    (mergeSort_ascending id names') ?_
  exact (List.mergeSort_perm names _).trans (h.trans (List.mergeSort_perm names' _).symm)

/-- Neither the one that is marked nor the names of several depend on their order. -/
theorem theDefault_of_perm (h : rs.Perm rs') : theDefault rs = theDefault rs' := by
  have hmarked : (rs.filter Repository.isDefault).Perm (rs'.filter Repository.isDefault) := h.filter _
  have hlength := hmarked.length_eq
  unfold theDefault
  rcases hrs : rs.filter Repository.isDefault with _ | ⟨a, _ | ⟨b, more⟩⟩
  · rw [hrs] at hmarked
    rw [← hmarked.nil_eq]
  · rw [hrs] at hmarked
    rw [← hmarked.singleton_eq]
  · rw [hrs] at hmarked hlength
    rcases hrs' : rs'.filter Repository.isDefault with _ | ⟨a', _ | ⟨b', more'⟩⟩
    · simp [hrs'] at hlength
    · simp [hrs'] at hlength
    · rw [hrs'] at hmarked
      exact congrArg (fun names => Except.error (RepoError.multipleDefaultRepositories names))
        (mergeSort_of_perm (hmarked.map Repository.name))

theorem askAll_listing (env : Surroundings) (op : RepoClient → Call α) (rs l : List Repository) :
    askAll (env.listing rs) op l = askAll env op l := by
  induction l with
  | nil => rfl
  | cons r l ih =>
    unfold askAll
    rw [ih]
    rfl

theorem ask_listing_of_perm (env : Surroundings) (h : rs.Perm rs')
    (distinct : (rs.map Repository.name).Nodup) (order : List Repository → List Repository)
    (op : RepoClient → Call α) (s : Clientset) :
    (ask (env.listing rs) order op).run s = (ask (env.listing rs') order op).run s := by
  rw [ask_run, ask_run]
  unfold Surroundings.listing
  dsimp only
  rw [byName_of_perm h distinct]
  exact congrArg (fun x : Lookup (Answers α) =>
    (Except.ok (x.run (listedOnce s)).1, (x.run (listedOnce s)).2))
    ((askAll_listing env op rs _).trans (askAll_listing env op rs' _).symm)

/-- Repositories with names of their own may be listed in any order: the merged catalog, the newest
version and the offering repositories of a package and the default repository are the same, as is
all that is kept, asked and counted. They may also be asked at once, in any order and with their
steps mixed in any way: each answers what it answers in turn, and the same names are kept with the
same specifications. Calls for catalogs and for version indices ignore the requests made before. -/
theorem order_of_repositories_never_shows (history : History) (env : Surroundings)
    (same : rs.Perm rs') (distinct : (rs.map Repository.name).Nodup) :
    let s := through {} history
    (mergedCatalog (env.listing rs)).run s = (mergedCatalog (env.listing rs')).run s ∧
    (∀ name, (latestVersion (env.listing rs) name).run s =
      (latestVersion (env.listing rs') name).run s) ∧
    (∀ name, (repositoriesOffering (env.listing rs) name).run s =
      (repositoriesOffering (env.listing rs') name).run s) ∧
    (defaultRepository (env.listing rs)).run s = (defaultRepository (env.listing rs')).run s ∧
    ∀ {α : Type} (op : RepoClient → Call α), IgnoresRequests op → ∀ l : List Repository, l.Perm rs →
      let inTurn := (askAll env op rs).run s
      (∀ answers t, AtOnce.MayAnswer env op s l answers t →
        l.zip answers = ((askAll env op l).run s).1 ∧ (l.zip answers).Perm inTurn.1 ∧
        ∀ name, (t.entries.get? name).map (·.spec) = (inTurn.2.entries.get? name).map (·.spec)) ∧
      AtOnce.MayAnswer env op s l (((askAll env op l).run s).1.map Prod.snd)
        ((askAll env op l).run s).2 := by
  intro s
  have hsound : IsSound s := isSound_empty.through history
  have hask {α : Type} (order : List Repository → List Repository) (op : RepoClient → Call α) :=
    ask_listing_of_perm env same distinct order op s
  refine ⟨?_, fun name => ?_, fun name => ?_, ?_, fun op hop l hl => ⟨fun answers t hmay => ?_, ?_⟩⟩
  · exact congrArg (fun p => (p.1.map merge, p.2)) (hask List.reverse (RepoClient.catalog env.web))
  · exact congrArg (fun p => (p.1.bind (newest name), p.2))
      (hask id fun c => c.versionIndex env.web name)
  · exact congrArg (fun p => (p.1.bind (offering name), p.2)) (hask id (RepoClient.catalog env.web))
  · exact congrArg (fun found => (found, listedOnce s)) (theDefault_of_perm same)
  · exact hmay.agrees hop hsound distinct hl
  · exact AtOnce.mayAnswer_askAll env op s l

/-- Two repositories that are listed in either order, and asked with their steps mixed. -/
theorem order_of_repositories_never_shows_two :
    let a : Repository := { metadata := { name := "a" }, spec := { url := "http://a" } }
    let b : Repository := { metadata := { name := "b" }, spec := { url := "http://b" } }
    let env : Surroundings :=
      { settings := {}, source := ({} : Inventory).toSource, web := fun _ => .answer 503 none none }
    let op : RepoClient → Call Catalog := RepoClient.catalog env.web
    let client (url : String) : RepoClient :=
      { baseUrl := url, auth := .anonymous, maxCacheAge := .ofSeconds 300 }
    let answers : List (Except RepoError Catalog) :=
      [.error (.status "http://b/index.yaml" 503), .error (.status "http://a/index.yaml" 503)]
    let t : Clientset :=
      { entries :=
          [("a", { client := { number := 1, client := client "http://a" }, spec := a.spec }),
           ("b", { client := { number := 0, client := client "http://b" }, spec := b.spec })]
        catalogs := [none, none]
        requests := [⟨"http://a/index.yaml", none⟩, ⟨"http://b/index.yaml", none⟩] }
    AtOnce.MayAnswer env op (through {} []) [b, a] answers t ∧
    (mergedCatalog (env.listing [a, b])).run (through {} []) =
      (mergedCatalog (env.listing [b, a])).run (through {} []) ∧
    ([b, a].zip answers).Perm ((askAll env op [a, b]).run (through {} [])).1 ∧
    ∀ name, (t.entries.get? name).map (·.spec) =
      (((askAll env op [a, b]).run (through {} [])).2.entries.get? name).map (·.spec) := by
  intro a b env op client answers t
  have hperm : [a, b].Perm [b, a] := .swap b a []
  have hnodup : ([a, b].map Repository.name).Nodup := by decide
  -- what is built from the specifications, and what these clients are answered
  have hcreateA : RepoClient.create "http://a" .anonymous (.ofSeconds 300) =
      .ok (client "http://a") := rfl
  have hcreateB : RepoClient.create "http://b" .anonymous (.ofSeconds 300) =
      .ok (client "http://b") := rfl
  have hclientA : clientOf env a = .ok (client "http://a") :=
    (clientOf_of_auth_none rfl).trans hcreateA
  have hclientB : clientOf env b = .ok (client "http://b") :=
    (clientOf_of_auth_none rfl).trans hcreateB
  have hanswerA : (RepoClient.catalog (fun _ => .answer 503 none none)
      { baseUrl := "http://a", auth := .anonymous, maxCacheAge := .ofSeconds 300 }).run {} =
        (.error (.status "http://a/index.yaml" 503),
          { requests := [⟨"http://a/index.yaml", none⟩] }) := rfl
  have hanswerB : (RepoClient.catalog (fun _ => .answer 503 none none)
      { baseUrl := "http://b", auth := .anonymous, maxCacheAge := .ofSeconds 300 }).run
        { requests := [⟨"http://a/index.yaml", none⟩] } =
          (.error (.status "http://b/index.yaml" 503), { requests := t.requests }) := rfl
  -- `b` takes its client in first, and makes its call last
  let s : Clientset := withClient {} b (client "http://b")
  let s' : Clientset := s.withClient a (client "http://a")
  let builtA : AskStage Catalog := .looking (.built a (.ok (client "http://a")))
  let builtB : AskStage Catalog := .looking (.built b (.ok (client "http://b")))
  let foundA : AskStage Catalog := .looking (.found (.built ⟨1, client "http://a"⟩))
  let foundB : AskStage Catalog := .looking (.found (.built ⟨0, client "http://b"⟩))
  let toldA : AskStage Catalog := .answered (.error (.status "http://a/index.yaml" 503))
  have hbuilt : AtOnce.run env op (AtOnce.start (through {} []) [b, a]) [0, 1, 1, 0] =
      { clients := {}
        stages := [.looking (.built b (clientOf env b)), .looking (.built a (clientOf env a))] } :=
    rfl
  rw [hclientA, hclientB] at hbuilt
  have habsent : s.clientFor a = none := by decide +kernel
  have hfoundB : AtOnce.step env op { clients := {}, stages := [builtB, builtA] } 0 =
      { clients := s, stages := [foundB, builtA] } := AtOnce.step_takeIn [] [builtA] rfl _
  have hfoundA : AtOnce.step env op { clients := s, stages := [foundB, builtA] } 1 =
      { clients := s', stages := [foundB, foundA] } := AtOnce.step_takeIn [foundB] [] habsent _
  have htoldA : AtOnce.step env op { clients := s', stages := [foundB, foundA] } 1 =
      { clients := { s' with requests := [⟨"http://a/index.yaml", none⟩] }
        stages := [foundB, toldA] } :=
    (AtOnce.step_call [foundB] [] s' ⟨1, client "http://a"⟩ hanswerA).trans rfl
  have htoldB : AtOnce.step env op
      { clients := { s' with requests := [⟨"http://a/index.yaml", none⟩] }
        stages := [foundB, toldA] } 0 =
          { clients := { s' with requests := t.requests }, stages := answers.map .answered } :=
    (AtOnce.step_call [] [toldA] _ ⟨0, client "http://b"⟩ hanswerB).trans rfl
  have hmay : AtOnce.MayAnswer env op (through {} []) [b, a] answers t := by
    have hentries : s'.entries = t.entries := if_pos (by decide +kernel : "a" < "b")
    refine ⟨[0, 1, 1, 0] ++ [0, 1, 1, 0], ?_⟩
    unfold AtOnce.run at hbuilt ⊢
    rw [List.foldl_append, hbuilt]
    simp only [List.foldl_cons, List.foldl_nil]
    rw [hfoundB, hfoundA, htoldA, htoldB]
    exact congrArg (fun entries => ({ clients := { t with entries }, stages := answers.map .answered } :
      AtOnce Catalog)) hentries
  obtain ⟨hmerged, -, -, -, hasked⟩ := order_of_repositories_never_shows [] env hperm hnodup
  obtain ⟨-, hanswers, hspecs⟩ :=
    (hasked op (ignoresRequests_catalog env.web) [b, a] hperm.symm).1 answers t hmay
  exact ⟨hmay, hmerged, hanswers, hspecs⟩

end

end Aggregate
end ClusterPackages
