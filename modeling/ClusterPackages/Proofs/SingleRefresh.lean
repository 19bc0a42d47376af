import ClusterPackages.Proofs.Refresh
import Mathlib.Data.List.Nodup

/-! One request serves all readers. As long as nobody forgets the catalog and it stays fresh, the
first request that succeeds is the last one: whoever asks has found nothing kept while it held the
lock, so all requests before its own have failed. -/

namespace ClusterPackages.RepoClient

namespace Refresh

variable {c : RepoClient} {s t : Refresh} {log : List (ℕ × Except RepoError Catalog)}

/-- Nothing is kept while a reader asks. A catalog that a reader gives is kept, and an error that it
gives came of its own request. -/
def Account (log : List (ℕ × Except RepoError Catalog)) (kept : Option Catalog) (i : ℕ) :
    Reader → Prop
  | .starting | .waiting | .locked => True
  | .asking => kept = none
  | .answered x => kept = none ∧ (i, .ok x) ∈ log
  | .leaving result | .finished result =>
    (∀ x, result = .ok x → kept = some x) ∧ ∀ e, result = .error e → (i, .error e) ∈ log

theorem Account.snoc {kept : Option Catalog} {i : ℕ} {r : Reader} (h : Account log kept i r)
    (g : ℕ × Except RepoError Catalog) : Account (log ++ [g]) kept i r := by
  cases r with
  | answered x => exact ⟨h.1, List.mem_append_left _ h.2⟩
  | leaving result => exact ⟨h.1, fun e he => List.mem_append_left _ (h.2 e he)⟩
  | finished result => exact ⟨h.1, fun e he => List.mem_append_left _ (h.2 e he)⟩
  | _ => exact h

/-- After the requests of `log`. -/
structure IsServed (log : List (ℕ × Except RepoError Catalog)) (s : Refresh) : Prop where
  guarded : s.IsGuarded
  /-- A request that another one follows has failed. -/
  inOrder : log.Pairwise fun g _ => ∃ e, g.2 = .error e
  once : (log.map Prod.fst).Nodup
  told : ∀ i result, (i, result) ∈ log → ∃ r, s.readers[i]? = some r ∧ r.result? = some result
  kept : ∀ x, s.kept = some x → ∃ i, (i, .ok x) ∈ log
  account : ∀ i r, s.readers[i]? = some r → Account log s.kept i r

theorem isServed_start (count : ℕ) : IsServed [] (start none count) where
  guarded := isGuarded_start none count
  inOrder := .nil
  once := .nil
  told _ _ h := by cases h
  kept x h := by cases h
  account i r hr := by
    obtain rfl : r = .starting := List.eq_of_mem_replicate (List.mem_of_getElem? hr)
    trivial

/-- Until now every request has failed if somebody is about to make one. -/
theorem IsServed.all_failed (h : IsServed log s) {i : ℕ} (hi : s.readers[i]? = some .asking) :
    ∀ g ∈ log, ∃ e, g.2 = .error e := by
  rintro ⟨j, result⟩ hg
  cases result with
  | error e => exact ⟨e, rfl⟩
  | ok x =>
    have hnone : s.kept = none := h.account i _ hi
    obtain ⟨r, hr, hresult⟩ := h.told j _ hg
    have hj := h.account j r hr
    cases r with
    | answered y =>
      obtain rfl := h.guarded.eq hi rfl hr rfl
      cases hi.symm.trans hr
    | leaving y =>
      obtain rfl := Option.some.inj hresult
      cases hnone.symm.trans (hj.1 x rfl)
    | finished y =>
      obtain rfl := Option.some.inj hresult
      cases hnone.symm.trans (hj.1 x rfl)
    | _ => cases hresult

theorem IsServed.not_mem (h : IsServed log s) {i : ℕ} (hi : s.readers[i]? = some .asking) :
    i ∉ log.map Prod.fst := by
  intro hmem
  obtain ⟨⟨j, result⟩, hg, rfl⟩ := List.mem_map.1 hmem
  obtain ⟨r, hr, hresult⟩ := h.told j result hg
  obtain rfl := Option.some.inj (hi.symm.trans hr)
  cases hresult

theorem Moves.result?_eq {i : ℕ} {answer : Except RepoError Catalog} {a b : Reader}
    {kept : Option Catalog} {holder : Option ℕ} (h : Moves c s i answer a b kept holder)
    (result : Except RepoError Catalog) (ha : a.result? = some result) : b.result? = some result := by
  cases h with
  | keep => exact ha
  | leave => exact ha
  | _ => cases ha

/-- What was told stays told when a reader moves. -/
theorem IsServed.told_set (h : IsServed log s) {i : ℕ} {a b : Reader} (ha : s.readers[i]? = some a)
    (hresult : ∀ result, a.result? = some result → b.result? = some result) {j : ℕ}
    {result : Except RepoError Catalog} (hg : (j, result) ∈ log) :
    ∃ r, (s.readers.set i b)[j]? = some r ∧ r.result? = some result := by
  obtain ⟨r, hr, hhas⟩ := h.told j result hg
  by_cases hji : j = i
  · subst hji
    obtain rfl := Option.some.inj (ha.symm.trans hr)
    exact ⟨b, getElem?_set_of_some ha b, hresult result hhas⟩
  · exact ⟨r, (List.getElem?_set_ne (Ne.symm hji)).trans hr, hhas⟩

/-- A step that neither asks nor keeps. -/
theorem IsServed.move (h : IsServed log s) {i : ℕ} {a b : Reader} {holder : Option ℕ}
    (ha : s.readers[i]? = some a)
    (hresult : ∀ result, a.result? = some result → b.result? = some result)
    (hb : Account log s.kept i b)
    (hguarded : IsGuarded { kept := s.kept, holder, readers := s.readers.set i b }) :
    IsServed log { kept := s.kept, holder, readers := s.readers.set i b } where
  guarded := hguarded
  inOrder := h.inOrder
  once := h.once
  told _ _ hg := h.told_set ha hresult hg
  kept := h.kept
  account j r hr := by
    rcases reader_of_set hr with ⟨rfl, rfl⟩ | ⟨-, hr⟩
    · exact hb
    · exact h.account j r hr

/-- A request, whatever comes of it. -/
theorem IsServed.ask (h : IsServed log s) {i : ℕ} {answer : Except RepoError Catalog} {b : Reader}
    (ha : s.readers[i]? = some .asking) (hresult : b.result? = some answer)
    (hb : Account (log ++ [(i, answer)]) s.kept i b)
    (hguarded : IsGuarded { s with readers := s.readers.set i b }) :
    IsServed (log ++ [(i, answer)]) { s with readers := s.readers.set i b } where
  guarded := hguarded
  inOrder := by
    refine List.pairwise_append.2 ⟨h.inOrder, List.pairwise_singleton _ _, fun g hg _ _ => ?_⟩
    exact h.all_failed ha g hg
  once := by
    rw [List.map_append, List.map_singleton, List.nodup_append]
    refine ⟨h.once, List.nodup_singleton _, fun j hj k hk hjk => h.not_mem ha ?_⟩
    rw [hjk, List.mem_singleton.1 hk] at hj
    exact hj
  told j result hg := by
    rcases List.mem_append.1 hg with hg | hg
    · exact h.told_set ha (fun result hnone => (by cases hnone)) hg
    · obtain ⟨rfl, rfl⟩ := Prod.mk.inj (List.mem_singleton.1 hg)
      exact ⟨b, getElem?_set_of_some ha b, hresult⟩
  kept x hx := by
    obtain ⟨j, hj⟩ := h.kept x hx
    exact ⟨j, List.mem_append_left _ hj⟩
  account j r hr := by
    rcases reader_of_set hr with ⟨rfl, rfl⟩ | ⟨-, hr⟩
    · exact hb
    · exact (h.account j r hr).snoc _

theorem IsServed.keep (h : IsServed log s) {i : ℕ} {x : Catalog}
    (ha : s.readers[i]? = some (.answered x))
    (hguarded : IsGuarded
      { kept := some x, holder := s.holder, readers := s.readers.set i (.leaving (.ok x)) }) :
    IsServed log
      { kept := some x, holder := s.holder, readers := s.readers.set i (.leaving (.ok x)) } where
  guarded := hguarded
  inOrder := h.inOrder
  once := h.once
  told _ _ hg := h.told_set (b := .leaving (.ok x)) ha (fun _ hx => hx) hg
  kept y hy := by
    obtain rfl := Option.some.inj hy
    exact ⟨i, (h.account i _ ha).2⟩
  account j r hr := by
    have hnone : s.kept = none := (h.account i _ ha).1
    rcases reader_of_set hr with ⟨rfl, rfl⟩ | ⟨hne, hr⟩
    · exact ⟨fun y hy => congrArg some (Except.ok.inj hy), fun e he => (by cases he)⟩
    · have hj := h.account j r hr
      -- nobody else is past the lock, and nobody has given a catalog yet
      cases r with
      | asking => exact absurd (h.guarded.eq hr rfl ha rfl) hne
      | answered y => exact absurd (h.guarded.eq hr rfl ha rfl) hne
      | leaving result => exact absurd (h.guarded.eq hr rfl ha rfl) hne
      | finished result =>
        exact ⟨fun y hy => (by cases hnone.symm.trans (hj.1 y hy)), hj.2⟩
      | _ => trivial

theorem fresh?_eq {kept : Option Catalog} (keeps : c.keepsCatalog = true) :
    c.fresh? kept = kept := if_pos keeps

theorem IsServed.step (keeps : c.keepsCatalog = true) {event : RefreshEvent}
    (advances : event ≠ .invalidate) (h : IsServed log s) (hstep : s.step? c event = some t) :
    IsServed (log ++ s.askedBy event) t := by
  have hguarded : t.IsGuarded := h.guarded.step hstep
  cases event with
  | invalidate => exact absurd rfl advances
  | advance i answer =>
    obtain ⟨a, b, kept, holder, ha, hmoves, rfl⟩ := exists_moves hstep
    have haccount := h.account i a ha
    by_cases hasking : a = .asking
    · subst hasking
      rw [askedBy_of_asking ha]
      cases hmoves with
      | answer hok =>
        subst hok
        exact h.ask ha rfl ⟨haccount, List.mem_append_right _ (List.mem_singleton_self _)⟩ hguarded
      | fail herror =>
        subst herror
        refine h.ask ha rfl ⟨fun x hx => (by cases hx), fun e he => ?_⟩ hguarded
        rw [← he]
        exact List.mem_append_right _ (List.mem_singleton_self _)
    · rw [askedBy_of_ne ha hasking, List.append_nil]
      have hresult := hmoves.result?_eq
      cases hmoves with
      | hit hfresh =>
        rw [fresh?_eq keeps] at hfresh
        exact h.move ha hresult ⟨fun y hy => hfresh.trans (congrArg some (Except.ok.inj hy)),
          fun e he => (by cases he)⟩ hguarded
      | miss hstale => exact h.move ha hresult trivial hguarded
      | lock hfree => exact h.move ha hresult trivial hguarded
      | hitInside hfresh =>
        rw [fresh?_eq keeps] at hfresh
        exact h.move ha hresult ⟨fun y hy => hfresh.trans (congrArg some (Except.ok.inj hy)),
          fun e he => (by cases he)⟩ hguarded
      | missInside hstale =>
        rw [fresh?_eq keeps] at hstale
        exact h.move ha hresult hstale hguarded
      | answer hok => exact absurd rfl hasking
      | fail herror => exact absurd rfl hasking
      | keep => exact h.keep ha hguarded
      | leave => exact h.move ha hresult haccount hguarded

theorem IsServed.error_told (h : IsServed log s) {i : ℕ} {e : RepoError}
    (hg : (i, .error e) ∈ log) :
    s.readers[i]? = some (.leaving (.error e)) ∨ s.readers[i]? = some (.finished (.error e)) := by
  obtain ⟨r, hr, hresult⟩ := h.told i _ hg
  cases r with
  | leaving result =>
    obtain rfl : result = .error e := Option.some.inj hresult
    exact .inl hr
  | finished result =>
    obtain rfl : result = .error e := Option.some.inj hresult
    exact .inr hr
  | _ => cases hresult

theorem IsServed.origin (h : IsServed log s) {i : ℕ} {result : Except RepoError Catalog}
    (hr : s.readers[i]? = some (.finished result)) :
    (∃ j x, result = .ok x ∧ (j, .ok x) ∈ log) ∨ ∃ e, result = .error e ∧ (i, .error e) ∈ log := by
  obtain ⟨hok, herror⟩ := h.account i _ hr
  cases result with
  | ok x =>
    obtain ⟨j, hj⟩ := h.kept x (hok x rfl)
    exact .inl ⟨j, x, rfl, hj⟩
  | error e => exact .inr ⟨e, rfl, herror e rfl⟩

/-- Readers of a catalog that stays fresh, and of which nothing is kept at first, come to an end, and
in every order of their steps at most one request succeeds, with none after it. A reader gives the
catalog of that request or the error of its own, which nobody else is told and which leaves alone
what is kept. -/
theorem readers_share_one_request (c : RepoClient) (keeps : c.keepsCatalog = true) (count : ℕ)
    (events : List RefreshEvent) (advances : ∀ e ∈ events, e ≠ .invalidate) (t : Refresh)
    (ran : (start none count).run? c events = some t) :
    let log := (start none count).asked c events
    (log.Pairwise fun g _ => ∃ e, g.2 = .error e) ∧ (log.map Prod.fst).Nodup ∧
    (∀ x, t.kept = some x → ∃ i, (i, .ok x) ∈ log) ∧
    (∀ i e, t.readers[i]? = some .asking →
      t.step? c (.advance i (.error e)) = some (t.move i (.leaving (.error e)))) ∧
    (∀ i e, (i, .error e) ∈ log → t.readers[i]? = some (.leaving (.error e)) ∨
      t.readers[i]? = some (.finished (.error e))) ∧
    (∀ i result, t.readers[i]? = some (.finished result) →
      (∃ j x, result = .ok x ∧ (j, .ok x) ∈ log) ∨
        ∃ e, result = .error e ∧ (i, .error e) ∈ log) ∧
    events.length ≤ 6 * count ∧
    ((∀ i < count, ∃ result, t.readers[i]? = some (.finished result)) ∨
      ∃ i, ∀ answer, (t.step? c (.advance i answer)).isSome = true) := by
  intro log
  have hserved : IsServed log t := by
    refine run_induction (I := IsServed) ?_ [] (isServed_start count) ran
    exact fun _ _ event _ hmem h hstep => h.step keeps (advances event hmem) hstep
  refine ⟨hserved.inOrder, hserved.once, hserved.kept, fun i e hi => ?_,
    fun i e hg => hserved.error_told hg, fun i result hr => hserved.origin hr, ?_, ?_⟩
  · simp [step?, hi, advance?]
  · have hsteps := length_le_of_run advances ran
    have hstart : (start none count).stepsLeft = 6 * count := by
      simp [stepsLeft, start, Reader.stepsLeft, Nat.mul_comm]
    omega
  · by_cases hdone : ∀ i < count, ∃ result, t.readers[i]? = some (.finished result)
    · exact .inl hdone
    · simp only [not_forall, not_exists] at hdone
      obtain ⟨i, hi, hunfinished⟩ := hdone
      have hlength : t.readers.length = count :=
        (length_readers_of_run ran).trans List.length_replicate
      have hr : t.readers[i]? = some t.readers[i] := List.getElem?_eq_getElem (hlength ▸ hi)
      exact .inr (hserved.guarded.exists_step hr fun result heq =>
        hunfinished result (hr.trans (congrArg some heq)))

/-- All three find nothing kept. The first to ask fails, the second does not, and the third finds
what the second has kept. -/
theorem readers_share_one_request_after_failure :
    let c : RepoClient := { baseUrl := "http://h", auth := .anonymous, maxCacheAge := .ofSeconds 300 }
    let x : Catalog := { packages := [{ name := "nginx", latestVersion := "v1.0.0" }] }
    let e : RepoError := .status "http://h/index.yaml" 503
    let shared : Except RepoError Catalog := .ok x
    let step (i : ℕ) : RefreshEvent := .advance i shared
    let events : List RefreshEvent :=
      [step 0, step 1, step 2, step 0, step 0, .advance 0 (.error e), step 0,
       step 1, step 1, step 1, step 1, step 1, step 2, step 2, step 2]
    let t : Refresh :=
      { kept := some x, readers := [.finished (.error e), .finished shared, .finished shared] }
    let log := (start none 3).asked c events
    (start none 3).run? c events = some t ∧ log = [(0, .error e), (1, shared)] ∧
    (log.Pairwise fun g _ => ∃ e, g.2 = .error e) ∧ (∃ i, (i, shared) ∈ log) ∧
    ((∃ j y, shared = .ok y ∧ (j, .ok y) ∈ log) ∨ ∃ e, shared = .error e ∧ (2, .error e) ∈ log) := by
  intro c x e shared step events t log
  have hran : (start none 3).run? c events = some t := by cbv
  have hlog : (start none 3).asked c events = [(0, .error e), (1, shared)] := by cbv
  have hadvances : ∀ event ∈ events, event ≠ .invalidate := by
    simp [events, step]
  obtain ⟨horder, -, hkept, -, -, horigin, -⟩ :=
    readers_share_one_request c rfl 3 events hadvances t hran
  exact ⟨hran, hlog, horder, hkept x rfl, horigin 2 shared rfl⟩

end Refresh
end ClusterPackages.RepoClient
