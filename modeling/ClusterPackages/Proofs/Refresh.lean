import ClusterPackages.Proofs.Coherence
import ClusterPackages.RepoClient.Refresh
import Mathlib.Algebra.GroupWithZero.Nat
import Mathlib.Data.List.Basic

/-! Readers of one catalog, step by step. What a step can do is said once (`Moves`), and a run has
the requests for the catalog beside the state it leads to. Only the reader that holds the lock is
past it (`IsGuarded`), so as long as one reader has not finished there is a step for some reader,
and each step brings the end nearer. -/

namespace ClusterPackages.RepoClient

namespace Reader

/-- From taking the lock to giving it back. -/
def isInside : Reader → Bool
  | .locked | .asking | .answered _ | .leaving _ => true
  | .starting | .waiting | .finished _ => false

/-- What a reader has to give, once it has something. -/
def result? : Reader → Option (Except RepoError Catalog)
  | .answered x => some (.ok x)
  | .leaving result | .finished result => some result
  | .starting | .waiting | .locked | .asking => none

/-- A reader takes at most so many more steps. -/
def stepsLeft : Reader → ℕ
  | .starting => 6
  | .waiting => 5
  | .locked => 4
  | .asking => 3
  | .answered _ => 2
  | .leaving _ => 1
  | .finished _ => 0

end Reader

namespace Refresh

variable {c : RepoClient} {s t : Refresh}

/-! ## Steps -/

/-- A step of the reader at `i`: from where it goes to where, and what is kept and who holds the
lock then. -/
inductive Moves (c : RepoClient) (s : Refresh) (i : ℕ) (answer : Except RepoError Catalog) :
    Reader → Reader → Option Catalog → Option ℕ → Prop
  | hit {x : Catalog} (fresh : c.fresh? s.kept = some x) :
      Moves c s i answer .starting (.finished (.ok x)) s.kept s.holder
  | miss (stale : c.fresh? s.kept = none) :
      Moves c s i answer .starting .waiting s.kept s.holder
  | lock (free : s.holder = none) :
      Moves c s i answer .waiting .locked s.kept (some i)
  | hitInside {x : Catalog} (fresh : c.fresh? s.kept = some x) :
      Moves c s i answer .locked (.leaving (.ok x)) s.kept s.holder
  | missInside (stale : c.fresh? s.kept = none) :
      Moves c s i answer .locked .asking s.kept s.holder
  | answer {x : Catalog} (h : answer = .ok x) :
      Moves c s i answer .asking (.answered x) s.kept s.holder
  | fail {e : RepoError} (h : answer = .error e) :
      Moves c s i answer .asking (.leaving (.error e)) s.kept s.holder
  | keep {x : Catalog} :
      Moves c s i answer (.answered x) (.leaving (.ok x)) (some x) s.holder
  | leave {result : Except RepoError Catalog} :
      Moves c s i answer (.leaving result) (.finished result) s.kept none

theorem exists_moves {i : ℕ} {answer : Except RepoError Catalog}
    (h : s.step? c (.advance i answer) = some t) :
    ∃ a b kept holder, s.readers[i]? = some a ∧ Moves c s i answer a b kept holder ∧
      t = { kept, holder, readers := s.readers.set i b } := by
  obtain ⟨a, ha, h⟩ := Option.bind_eq_some_iff.1 h
  cases a with
  | starting =>
    cases hfresh : c.fresh? s.kept with
    | some x =>
      simp only [advance?, look, hfresh] at h
      exact ⟨_, _, _, _, ha, .hit hfresh, (Option.some.inj h).symm⟩
    | none =>
      simp only [advance?, look, hfresh] at h
      exact ⟨_, _, _, _, ha, .miss hfresh, (Option.some.inj h).symm⟩
  | waiting =>
    cases hholder : s.holder with
    | some j => simp [advance?, hholder] at h
    | none =>
      simp only [advance?, hholder] at h
      exact ⟨_, _, _, _, ha, .lock hholder, (Option.some.inj h).symm⟩
  | locked =>
    cases hfresh : c.fresh? s.kept with
    | some x =>
      simp only [advance?, look, hfresh] at h
      exact ⟨_, _, _, _, ha, .hitInside hfresh, (Option.some.inj h).symm⟩
    | none =>
      simp only [advance?, look, hfresh] at h
      exact ⟨_, _, _, _, ha, .missInside hfresh, (Option.some.inj h).symm⟩
  | asking =>
    cases answer with
    | ok x => exact ⟨_, _, _, _, ha, .answer rfl, (Option.some.inj h).symm⟩
    | error e => exact ⟨_, _, _, _, ha, .fail rfl, (Option.some.inj h).symm⟩
  | answered x => exact ⟨_, _, _, _, ha, .keep, (Option.some.inj h).symm⟩
  | leaving result => exact ⟨_, _, _, _, ha, .leave, (Option.some.inj h).symm⟩
  | finished result => cases h

/-- After one reader moved, each stands where it stood or is the one that moved. -/
theorem reader_of_set {readers : List Reader} {i j : ℕ} {b r : Reader}
    (h : (readers.set i b)[j]? = some r) : j = i ∧ r = b ∨ j ≠ i ∧ readers[j]? = some r := by
  rw [List.getElem?_set] at h
  split_ifs at h with hij
  · exact .inl ⟨hij.symm, (Option.some.inj h).symm⟩
  · exact .inr ⟨Ne.symm hij, h⟩

theorem getElem?_set_of_some {readers : List Reader} {i : ℕ} {a : Reader}
    (h : readers[i]? = some a) (b : Reader) : (readers.set i b)[i]? = some b :=
  List.getElem?_set_self (List.getElem?_eq_some_iff.1 h).1

/-! ## Runs -/

/-- The request for the catalog that an event makes, if it makes one: who asks, and what comes. -/
def askedBy (s : Refresh) : RefreshEvent → List (ℕ × Except RepoError Catalog)
  | .advance i answer =>
    match s.readers[i]? with
    | some .asking => [(i, answer)]
    | _ => []
  | .invalidate => []

/-- The requests that a row of events makes, in order. -/
def asked (c : RepoClient) (s : Refresh) : List RefreshEvent → List (ℕ × Except RepoError Catalog)
  | [] => []
  | event :: events =>
    s.askedBy event ++ ((s.step? c event).map fun t => t.asked c events).getD []

theorem askedBy_of_asking {i : ℕ} (h : s.readers[i]? = some .asking)
    (answer : Except RepoError Catalog) : s.askedBy (.advance i answer) = [(i, answer)] := by
  simp only [askedBy, h]

theorem askedBy_of_ne {i : ℕ} {r : Reader} (h : s.readers[i]? = some r) (hr : r ≠ .asking)
    (answer : Except RepoError Catalog) : s.askedBy (.advance i answer) = [] := by
  simp only [askedBy, h]
  cases r with
  | asking => exact absurd rfl hr
  | _ => rfl

theorem run?_cons_eq_some_iff {event : RefreshEvent} {events : List RefreshEvent} :
    s.run? c (event :: events) = some t ↔
      ∃ u, s.step? c event = some u ∧ u.run? c events = some t :=
  Option.bind_eq_some_iff

theorem asked_cons {event : RefreshEvent} (h : s.step? c event = some t)
    (events : List RefreshEvent) : s.asked c (event :: events) = s.askedBy event ++ t.asked c events := by
  rw [asked, h]
  rfl

/-- What every step keeps, as the requests become more, holds after a run. -/
theorem run_induction {I : List (ℕ × Except RepoError Catalog) → Refresh → Prop}
    {events : List RefreshEvent}
    (step : ∀ log s event t, event ∈ events → I log s → s.step? c event = some t →
      I (log ++ s.askedBy event) t)
    (log : List (ℕ × Except RepoError Catalog)) (h : I log s)
    (ran : s.run? c events = some t) : I (log ++ s.asked c events) t := by
  induction events generalizing s log with
  | nil =>
    obtain rfl : s = t := Option.some.inj ran
    rw [asked, List.append_nil]
    exact h
  | cons event events ih =>
    obtain ⟨u, hu, hrest⟩ := run?_cons_eq_some_iff.1 ran
    rw [asked_cons hu, ← List.append_assoc]
    exact ih (fun log s event t hmem => step log s event t (List.mem_cons_of_mem _ hmem)) _
      (step log s event u List.mem_cons_self h hu) hrest

theorem length_readers_of_run {events : List RefreshEvent} (ran : s.run? c events = some t) :
    t.readers.length = s.readers.length := by
  refine run_induction (I := fun _ u => u.readers.length = s.readers.length) ?_ [] rfl ran
  intro _ u event v _ hu hstep
  cases event with
  | invalidate =>
    obtain rfl := Option.some.inj hstep
    exact hu
  | advance i answer =>
    obtain ⟨_, _, _, _, -, -, rfl⟩ := exists_moves hstep
    exact List.length_set.trans hu

/-! ## The lock -/

/-- Who is past the lock holds it, and who holds it is past it. -/
structure IsGuarded (s : Refresh) : Prop where
  holds : ∀ i r, s.readers[i]? = some r → r.isInside = true → s.holder = some i
  inside : ∀ i, s.holder = some i → ∃ r, s.readers[i]? = some r ∧ r.isInside = true

theorem isGuarded_start (kept : Option Catalog) (count : ℕ) : IsGuarded (start kept count) := by
  refine ⟨fun i r hr hin => ?_, fun i hi => (by cases hi)⟩
  obtain rfl : r = .starting :=
    List.eq_of_mem_replicate (List.mem_of_getElem? hr)
  cases hin

/-- A reader enters while nobody holds the lock, and gives it back when it goes. -/
theorem Moves.guards {i : ℕ} {answer : Except RepoError Catalog} {a b : Reader}
    {kept : Option Catalog} {holder : Option ℕ} (h : Moves c s i answer a b kept holder) :
    (a.isInside = b.isInside ∧ holder = s.holder) ∨
      (b.isInside = true ∧ s.holder = none ∧ holder = some i) ∨
      (a.isInside = true ∧ b.isInside = false ∧ holder = none) := by
  cases h with
  | lock free => exact .inr (.inl ⟨rfl, free, rfl⟩)
  | leave => exact .inr (.inr ⟨rfl, rfl, rfl⟩)
  | _ => exact .inl ⟨rfl, rfl⟩

theorem IsGuarded.step {event : RefreshEvent} (h : IsGuarded s) (hstep : s.step? c event = some t) :
    IsGuarded t := by
  cases event with
  | invalidate =>
    obtain rfl := Option.some.inj hstep
    exact ⟨h.holds, h.inside⟩
  | advance i answer =>
    obtain ⟨a, b, kept, holder, ha, hmoves, rfl⟩ := exists_moves hstep
    have hb := getElem?_set_of_some ha b
    rcases hmoves.guards with ⟨hsame, rfl⟩ | ⟨hin, hfree, rfl⟩ | ⟨hin, hout, rfl⟩
    · refine ⟨fun j r hr hj => ?_, fun j hj => ?_⟩
      · rcases reader_of_set hr with ⟨rfl, rfl⟩ | ⟨-, hr⟩
        · exact h.holds j a ha (hsame.trans hj)
        · exact h.holds j r hr hj
      · obtain ⟨r, hr, hrin⟩ := h.inside j hj
        by_cases hji : j = i
        · subst hji
          obtain rfl := Option.some.inj (ha.symm.trans hr)
          exact ⟨b, hb, hsame.symm.trans hrin⟩
        · exact ⟨r, (List.getElem?_set_ne (Ne.symm hji)).trans hr, hrin⟩
    · refine ⟨fun j r hr hj => ?_, fun j hj => ?_⟩
      · rcases reader_of_set hr with ⟨rfl, -⟩ | ⟨-, hr⟩
        · rfl
        · cases hfree.symm.trans (h.holds j r hr hj)
      · obtain rfl := Option.some.inj hj
        exact ⟨b, hb, hin⟩
    · refine ⟨fun j r hr hj => ?_, fun j hj => (by cases hj)⟩
      rcases reader_of_set hr with ⟨-, rfl⟩ | ⟨hne, hr⟩
      · exact absurd hj (by rw [hout]; exact Bool.false_ne_true)
      · -- the other would hold the lock too
        exact absurd (Option.some.inj ((h.holds j r hr hj).symm.trans (h.holds i a ha hin))) hne

theorem IsGuarded.run {events : List RefreshEvent} (h : IsGuarded s)
    (ran : s.run? c events = some t) : IsGuarded t :=
  run_induction (I := fun _ s => IsGuarded s) (fun _ _ _ _ _ h hstep => h.step hstep) [] h ran

/-- Two readers past the lock are one. -/
theorem IsGuarded.eq {i j : ℕ} {r r' : Reader} (h : IsGuarded s) (hr : s.readers[i]? = some r)
    (hin : r.isInside = true) (hr' : s.readers[j]? = some r') (hin' : r'.isInside = true) : i = j :=
  Option.some.inj ((h.holds i r hr hin).symm.trans (h.holds j r' hr' hin'))

/-! ## Getting to the end -/

/-- How many more steps the readers can take together. -/
def stepsLeft (s : Refresh) : ℕ := (s.readers.map Reader.stepsLeft).sum

theorem sum_stepsLeft_set {readers : List Reader} {i : ℕ} {a : Reader} (h : readers[i]? = some a)
    (b : Reader) :
    ((readers.set i b).map Reader.stepsLeft).sum + a.stepsLeft =
      (readers.map Reader.stepsLeft).sum + b.stepsLeft := by
  induction readers generalizing i with
  | nil => cases h
  | cons r readers ih =>
    cases i with
    | zero =>
      obtain rfl := Option.some.inj h
      simp only [List.set_cons_zero, List.map_cons, List.sum_cons]
      omega
    | succ i =>
      have hrest := ih h
      simp only [List.set_cons_succ, List.map_cons, List.sum_cons]
      omega

theorem Moves.stepsLeft_lt {i : ℕ} {answer : Except RepoError Catalog} {a b : Reader}
    {kept : Option Catalog} {holder : Option ℕ} (h : Moves c s i answer a b kept holder) :
    b.stepsLeft < a.stepsLeft := by
  cases h <;> simp only [Reader.stepsLeft] <;> omega

theorem length_le_of_run {events : List RefreshEvent} (advances : ∀ e ∈ events, e ≠ .invalidate)
    (ran : s.run? c events = some t) : events.length + t.stepsLeft ≤ s.stepsLeft := by
  induction events generalizing s with
  | nil =>
    obtain rfl : s = t := Option.some.inj ran
    exact Nat.le_of_eq (Nat.zero_add _)
  | cons event events ih =>
    obtain ⟨u, hu, hrest⟩ := run?_cons_eq_some_iff.1 ran
    have hlater := ih (fun e he => advances e (List.mem_cons_of_mem _ he)) hrest
    cases event with
    | invalidate => exact absurd rfl (advances _ List.mem_cons_self)
    | advance i answer =>
      obtain ⟨a, b, kept, holder, ha, hmoves, rfl⟩ := exists_moves hu
      have hless := hmoves.stepsLeft_lt
      have hsum := sum_stepsLeft_set ha b
      simp only [List.length_cons, stepsLeft] at hlater ⊢
      omega

theorem isSome_step?_of_isInside {i : ℕ} {r : Reader} (hr : s.readers[i]? = some r)
    (hin : r.isInside = true) (answer : Except RepoError Catalog) :
    (s.step? c (.advance i answer)).isSome = true := by
  simp only [step?, hr, Option.bind_some]
  cases r with
  | asking => cases answer <;> rfl
  | locked => rfl
  | answered x => rfl
  | leaving result => rfl
  | _ => cases hin

/-- As long as one reader has not finished, there is one that can take a step. -/
theorem IsGuarded.exists_step {i : ℕ} {r : Reader} (h : IsGuarded s) (hr : s.readers[i]? = some r)
    (unfinished : ∀ result, r ≠ .finished result) :
    ∃ j, ∀ answer, (s.step? c (.advance j answer)).isSome = true := by
  cases hholder : s.holder with
  | some j =>
    obtain ⟨r', hr', hin⟩ := h.inside j hholder
    exact ⟨j, isSome_step?_of_isInside hr' hin⟩
  | none =>
    refine ⟨i, fun answer => ?_⟩
    cases r with
    | starting => simp [step?, hr, advance?]
    | waiting => simp [step?, hr, advance?, hholder]
    | finished result => exact absurd rfl (unfinished result)
    | _ => exact isSome_step?_of_isInside hr rfl answer

/-- A reader that is alone reads as the client does. -/
theorem exists_run_alone (web : Web) (c : RepoClient) (t : CallState) :
    ∃ n, (start t.catalog 1).run? c (List.replicate n (.advance 0 (c.served web))) =
      some { kept := ((c.catalog web).run t).2.catalog
             readers := [.finished ((c.catalog web).run t).1] } := by
  obtain ⟨_, hrun⟩ := c.catalog_run web t
  rw [hrun]
  unfold catalogFrom
  cases hfresh : c.fresh? t.catalog with
  | some x =>
    have hkept := eq_some_of_fresh? hfresh
    rw [hkept] at hfresh ⊢
    refine ⟨1, ?_⟩
    simp [run?, step?, advance?, look, move, start, hfresh, Except.toOption]
  | none =>
    cases hserved : c.served web with
    | ok x =>
      refine ⟨6, ?_⟩
      simp [run?, step?, advance?, look, move, start, hfresh, List.replicate, Except.toOption]
    | error e =>
      refine ⟨5, ?_⟩
      simp [run?, step?, advance?, look, move, start, hfresh, List.replicate, Except.toOption]

end Refresh
end ClusterPackages.RepoClient
