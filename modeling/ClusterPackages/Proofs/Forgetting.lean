import ClusterPackages.Proofs.Refresh

/-! What is left of a catalog that was forgotten. Forgetting takes away what is kept and does not wait
for the lock, so it misses the one catalog that a reader has been answered with and is about to keep.
Every other catalog that a later reader gives was asked for since. A catalog that grew too old is as
good as forgotten, so it needs no events of its own. -/

namespace ClusterPackages.RepoClient.Refresh

variable {c : RepoClient} {s t : Refresh}

/-- A reader takes a catalog from what is kept or from its own request, or has had it. -/
theorem Moves.ok_origin {i : ℕ} {answer : Except RepoError Catalog} {a b : Reader}
    {kept : Option Catalog} {holder : Option ℕ} {x : Catalog}
    (h : Moves c s i answer a b kept holder) (hb : b.result? = some (.ok x)) :
    s.kept = some x ∨ a.result? = some (.ok x) ∨ a = .asking ∧ answer = .ok x := by
  cases h with
  | hit fresh =>
    cases hb
    exact .inl (eq_some_of_fresh? fresh)
  | hitInside fresh =>
    cases hb
    exact .inl (eq_some_of_fresh? fresh)
  | answer hok =>
    cases hb
    exact .inr (.inr ⟨rfl, hok⟩)
  | keep => exact .inr (.inl hb)
  | leave => exact .inr (.inl hb)
  | _ => cases hb

theorem Moves.kept_origin {i : ℕ} {answer : Except RepoError Catalog} {a b : Reader}
    {kept : Option Catalog} {holder : Option ℕ} (h : Moves c s i answer a b kept holder) :
    kept = s.kept ∨ ∃ x, a = .answered x ∧ kept = some x := by
  cases h with
  | keep => exact .inr ⟨_, rfl, rfl⟩
  | _ => exact .inl rfl

theorem Moves.eq_asking {i : ℕ} {answer : Except RepoError Catalog} {a : Reader} {x : Catalog}
    {kept : Option Catalog} {holder : Option ℕ}
    (h : Moves c s i answer a (.answered x) kept holder) : a = .asking ∧ answer = .ok x := by
  cases h with
  | answer hok => exact ⟨rfl, hok⟩

/-! ## Late readers -/

/-- The only catalogs that are kept, that are about to be, and that readers from `late` have. -/
structure ShowsOnly (shown : Catalog → Prop) (late : ℕ → Prop) (s : Refresh) : Prop where
  kept : ∀ x, s.kept = some x → shown x
  answered : ∀ (i : ℕ) x, s.readers[i]? = some (.answered x) → shown x
  given : ∀ (i : ℕ) r x, late i → s.readers[i]? = some r → r.result? = some (.ok x) → shown x

theorem ShowsOnly.mono {shown shown' : Catalog → Prop} {late : ℕ → Prop}
    (h : ShowsOnly shown late s) (hmono : ∀ x, shown x → shown' x) : ShowsOnly shown' late s :=
  ⟨fun x hx => hmono x (h.kept x hx), fun i x hx => hmono x (h.answered i x hx),
    fun i r x hi hr hx => hmono x (h.given i r x hi hr hx)⟩

/-- The catalogs that were brought by the requests of `log` or were on their way before. -/
def Since (log : List (ℕ × Except RepoError Catalog)) (s : Refresh) (x : Catalog) : Prop :=
  (∃ i, (i, .ok x) ∈ log) ∨ ∃ i : ℕ, s.readers[i]? = some (.answered x)

theorem ShowsOnly.step {shown : Catalog → Prop} {late : ℕ → Prop} {event : RefreshEvent}
    (h : ShowsOnly shown late s) (asked : ∀ i x, (i, .ok x) ∈ s.askedBy event → shown x)
    (hstep : s.step? c event = some t) : ShowsOnly shown late t := by
  cases event with
  | invalidate =>
    obtain rfl := Option.some.inj hstep
    exact ⟨fun x hx => (by cases hx), h.answered, h.given⟩
  | advance i answer =>
    obtain ⟨a, b, kept, holder, ha, hmoves, rfl⟩ := exists_moves hstep
    have hown : ∀ x, a = .asking → answer = .ok x → shown x := by
      rintro x rfl rfl
      refine asked i x ?_
      rw [askedBy_of_asking ha]
      exact List.mem_singleton_self _
    refine ⟨fun x hx => ?_, fun j x hj => ?_, fun j r x hlate hr hx => ?_⟩
    · rcases hmoves.kept_origin with rfl | ⟨y, rfl, rfl⟩
      · exact h.kept x hx
      · obtain rfl := Option.some.inj hx
        exact h.answered i y ha
    · rcases reader_of_set hj with ⟨-, rfl⟩ | ⟨-, hj⟩
      · exact hown x hmoves.eq_asking.1 hmoves.eq_asking.2
      · exact h.answered j x hj
    · rcases reader_of_set hr with ⟨rfl, rfl⟩ | ⟨-, hr⟩
      · rcases hmoves.ok_origin hx with hkept | hhad | ⟨hasking, hok⟩
        · exact h.kept x hkept
        · exact h.given j a x hlate ha hhad
        · exact hown x hasking hok
      · exact h.given j r x hlate hr hx

/-- When the catalog has just been forgotten. -/
theorem showsOnly_forgotten (s : Refresh) :
    ShowsOnly (Since [] s) (fun i => s.readers[i]? = some .starting) { s with kept := none } := by
  refine ⟨fun x hx => (by cases hx), fun i x hx => .inr ⟨i, hx⟩, fun i r x hi hr hx => ?_⟩
  obtain rfl := Option.some.inj (hi.symm.trans hr)
  cases hx

theorem showsOnly_run {events : List RefreshEvent}
    (ran : s.run? c (.invalidate :: events) = some t) :
    ShowsOnly (Since (s.asked c (.invalidate :: events)) s)
      (fun i => s.readers[i]? = some .starting) t := by
  obtain ⟨u, hu, hrest⟩ := run?_cons_eq_some_iff.1 ran
  rw [asked_cons hu]
  obtain rfl := Option.some.inj hu
  refine run_induction (I := fun log u => ShowsOnly (Since log s) _ u) ?_ [] (showsOnly_forgotten s)
    hrest
  intro log u event v _ h hstep
  refine (h.mono ?_).step (fun i x hx => .inl ⟨i, List.mem_append_right _ hx⟩) hstep
  rintro x (⟨i, hi⟩ | hx)
  · exact .inl ⟨i, List.mem_append_left _ hi⟩
  · exact .inr hx

/-! ## What forgetting misses -/

/-- A catalog that is on its way is kept although it was to be forgotten, and the next reader finds
it. -/
theorem exists_run_of_answered (keeps : c.keepsCatalog = true) {i j : ℕ} {x : Catalog}
    (hi : s.readers[i]? = some .starting) (hj : s.readers[j]? = some (.answered x))
    (answer : Except RepoError Catalog) :
    ∃ u, s.run? c [.invalidate, .advance j answer, .advance i answer] = some u ∧
      u.readers[i]? = some (.finished (.ok x)) := by
  have hne : j ≠ i := by
    rintro rfl
    cases hi.symm.trans hj
  have hi' : (s.readers.set j (.leaving (.ok x)))[i]? = some .starting :=
    (List.getElem?_set_ne hne).trans hi
  have hfresh : c.fresh? (some x) = some x := if_pos keeps
  refine ⟨{ kept := some x, holder := s.holder
            readers := (s.readers.set j (.leaving (.ok x))).set i (.finished (.ok x)) }, ?_, ?_⟩
  · simp [run?, step?, hj, advance?, move, hi', look, hfresh]
  · exact getElem?_set_of_some hi' _

/-- A reader that starts after the catalog was forgotten gives one that was asked for since, unless a
reader had been answered at that moment and had not kept its catalog yet. There is at most one such
reader, and its catalog can still be shown. -/
theorem late_readers_see_what_was_asked_since (c : RepoClient) (kept : Option Catalog) (count : ℕ)
    (before after : List RefreshEvent) (s t : Refresh)
    (ran : (start kept count).run? c before = some s)
    (ranOn : s.run? c (.invalidate :: after) = some t) :
    (∀ (i : ℕ) x, s.readers[i]? = some .starting → t.readers[i]? = some (.finished (.ok x)) →
      (∃ j, (j, .ok x) ∈ s.asked c (.invalidate :: after)) ∨
        ∃ j : ℕ, s.readers[j]? = some (.answered x)) ∧
    (∀ (j k : ℕ) x y, s.readers[j]? = some (.answered x) → s.readers[k]? = some (.answered y) →
      j = k ∧ x = y) ∧
    (c.keepsCatalog = true → ∀ (i j : ℕ) x, s.readers[i]? = some .starting →
      s.readers[j]? = some (.answered x) → ∀ answer,
      ∃ u, s.run? c [.invalidate, .advance j answer, .advance i answer] = some u ∧
        u.readers[i]? = some (.finished (.ok x))) := by
  refine ⟨fun i x hi ht => (showsOnly_run ranOn).given i _ x hi ht rfl, fun j k x y hj hk => ?_,
    fun keeps i j x hi hj => exists_run_of_answered keeps hi hj⟩
  have hguarded : s.IsGuarded := (isGuarded_start kept count).run ran
  obtain rfl := hguarded.eq hj rfl hk rfl
  cases hj.symm.trans hk
  exact ⟨rfl, rfl⟩

/-- The catalog that was kept is forgotten, so the next reader asks, and the one after it finds what
came. -/
theorem late_readers_see_what_was_asked_since_finding :
    let c : RepoClient := { baseUrl := "http://h", auth := .anonymous, maxCacheAge := .ofSeconds 300 }
    let old : Catalog := { packages := [{ name := "nginx", latestVersion := "v1.0.0" }] }
    let new : Catalog := { packages := [{ name := "nginx", latestVersion := "v2.0.0" }] }
    let step (i : ℕ) : RefreshEvent := .advance i (.ok new)
    let before : List RefreshEvent := [step 0]
    let after : List RefreshEvent := [step 1, step 1, step 1, step 1, step 1, step 1, step 2]
    let s : Refresh := { kept := some old, readers := [.finished (.ok old), .starting, .starting] }
    let t : Refresh :=
      { kept := some new
        readers := [.finished (.ok old), .finished (.ok new), .finished (.ok new)] }
    (start (some old) 3).run? c before = some s ∧ s.run? c (.invalidate :: after) = some t ∧
    s.asked c (.invalidate :: after) = [(1, .ok new)] ∧
    ((∃ j, (j, .ok new) ∈ s.asked c (.invalidate :: after)) ∨
      ∃ j : ℕ, s.readers[j]? = some (.answered new)) := by
  intro c old new step before after s t
  have hran : (start (some old) 3).run? c before = some s := by cbv
  have hranOn : s.run? c (.invalidate :: after) = some t := by cbv
  have hasked : s.asked c (.invalidate :: after) = [(1, .ok new)] := by cbv
  obtain ⟨hlate, -⟩ :=
    late_readers_see_what_was_asked_since c (some old) 3 before after s t hran hranOn
  exact ⟨hran, hranOn, hasked, hlate 2 new rfl rfl⟩

/-- The first reader has been answered when the catalog is forgotten, keeps its answer all the same,
and the second finds it although nobody has asked since. -/
theorem answer_outlives_forgetting :
    let c : RepoClient := { baseUrl := "http://h", auth := .anonymous, maxCacheAge := .ofSeconds 300 }
    let old : Catalog := { packages := [{ name := "nginx", latestVersion := "v1.0.0" }] }
    let step (i : ℕ) : RefreshEvent := .advance i (.ok old)
    let before : List RefreshEvent := [step 0, step 0, step 0, step 0]
    let after : List RefreshEvent := [step 0, step 1]
    ∃ s t : Refresh, (start none 2).run? c before = some s ∧
      (start none 2).asked c before = [(0, .ok old)] ∧ s.readers[1]? = some .starting ∧
      s.run? c (.invalidate :: after) = some t ∧ s.asked c (.invalidate :: after) = [] ∧
      t.readers[1]? = some (.finished (.ok old)) := by
  intro c old step before after
  let s : Refresh := { holder := some 0, readers := [.answered old, .starting] }
  let t : Refresh :=
    { kept := some old, holder := some 0, readers := [.leaving (.ok old), .finished (.ok old)] }
  have hran : (start none 2).run? c before = some s := by cbv
  have hasked : (start none 2).asked c before = [(0, .ok old)] := by cbv
  have hranOn : s.run? c (.invalidate :: after) = some t := by cbv
  have hnobody : s.asked c (.invalidate :: after) = [] := by cbv
  exact ⟨s, t, hran, hasked, rfl, hranOn, hnobody, rfl⟩

end ClusterPackages.RepoClient.Refresh
