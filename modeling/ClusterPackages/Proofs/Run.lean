import Mathlib.Logic.Basic

/-! Runs of computations that keep a state and may fail: a sequence ends well exactly if each part
does, each in the state that the one before left. Callers take a run apart with these and unfold
no `do` block. -/

namespace ClusterPackages.Run

variable {ε σ α β : Type}

theorem bind_eq (x : ExceptT ε (StateM σ) α) (f : α → ExceptT ε (StateM σ) β) (s : σ) :
    (x >>= f).run s =
      match x.run s with
      | (.ok a, t) => (f a).run t
      | (.error e, t) => (.error e, t) := by
  change (match x.run s with
    | (y, t) => ExceptT.bindCont f y t) = _
  rcases x.run s with ⟨_ | a, t⟩ <;> rfl

theorem bind_of_ok {x : ExceptT ε (StateM σ) α} {f : α → ExceptT ε (StateM σ) β} {s t : σ} {a : α}
    (h : x.run s = (.ok a, t)) : (x >>= f).run s = (f a).run t := by
  rw [bind_eq, h]

/-- A computation whose failure is a value, too. -/
theorem lift_run_eq (x : ExceptT ε (StateM σ) α) (s : σ) :
    (ExceptT.lift x.run : ExceptT ε (StateM σ) (Except ε α)).run s = (.ok (x.run s).1, (x.run s).2) := rfl

theorem bind_of_error {x : ExceptT ε (StateM σ) α} {f : α → ExceptT ε (StateM σ) β} {s t : σ}
    {e : ε} (h : x.run s = (.error e, t)) : (x >>= f).run s = (.error e, t) := by
  rw [bind_eq, h]

theorem bind_eq_ok_iff {x : ExceptT ε (StateM σ) α} {f : α → ExceptT ε (StateM σ) β} {s u : σ}
    {b : β} :
    (x >>= f).run s = (.ok b, u) ↔ ∃ a t, x.run s = (.ok a, t) ∧ (f a).run t = (.ok b, u) := by
  rw [bind_eq]
  rcases h : x.run s with ⟨e | a, t⟩
  · constructor
    · intro hb
      cases hb
    · rintro ⟨a, t', ha, -⟩
      cases ha
  · constructor
    · exact fun hf => ⟨a, t, rfl, hf⟩
    · rintro ⟨a', t', ha, hf⟩
      cases ha
      exact hf

theorem bind_eq_error_iff {x : ExceptT ε (StateM σ) α} {f : α → ExceptT ε (StateM σ) β} {s u : σ}
    {e : ε} :
    (x >>= f).run s = (.error e, u) ↔
      x.run s = (.error e, u) ∨ ∃ a t, x.run s = (.ok a, t) ∧ (f a).run t = (.error e, u) := by
  rw [bind_eq]
  rcases h : x.run s with ⟨e' | a, t⟩
  · constructor
    · intro he
      cases he
      exact .inl rfl
    · rintro (he | ⟨a, t', ha, -⟩)
      · cases he
        rfl
      · cases ha
  · constructor
    · exact fun hf => .inr ⟨a, t, rfl, hf⟩
    · rintro (he | ⟨a', t', ha, hf⟩)
      · cases he
      · cases ha
        exact hf

/-- What a state has to do with the ones that come of it passes on from the parts of a run. -/
theorem bind_moves {R : σ → σ → Prop} (trans : ∀ {s t u}, R s t → R t u → R s u)
    {x : ExceptT ε (StateM σ) α} {f : α → ExceptT ε (StateM σ) β} (hx : ∀ s, R s (x.run s).2)
    (hf : ∀ a s, R s ((f a).run s).2) (s : σ) : R s ((x >>= f).run s).2 := by
  have hs := hx s
  rw [bind_eq]
  generalize x.run s = result at hs ⊢
  rcases result with ⟨e | a, t⟩
  · exact hs
  · exact trans hs (hf a t)

theorem bind_pure_eq (x : ExceptT ε (StateM σ) α) (f : α → β) (s : σ) :
    (x >>= fun a => pure (f a)).run s = ((x.run s).1.map f, (x.run s).2) := by
  rw [bind_eq]
  rcases x.run s with ⟨_ | a, t⟩ <;> rfl

theorem tryCatch_eq (x : ExceptT ε (StateM σ) α) (f : ε → ExceptT ε (StateM σ) α) (s : σ) :
    (tryCatch x f).run s =
      match x.run s with
      | (.ok a, t) => (.ok a, t)
      | (.error e, t) => (f e).run t := by
  rw [ExceptT.run_tryCatch]
  simp only [bind, StateT.bind]
  rcases x.run s with ⟨_ | a, t⟩ <;> rfl

theorem pure_eq_ok_iff {a b : α} {s t : σ} :
    (pure a : ExceptT ε (StateM σ) α).run s = (.ok b, t) ↔ a = b ∧ s = t := by
  constructor
  · intro h
    cases h
    exact ⟨rfl, rfl⟩
  · rintro ⟨rfl, rfl⟩
    rfl

theorem map_eq_ok_iff {x : ExceptT ε (StateM σ) α} {f : α → β} {s u : σ} {b : β} :
    (f <$> x).run s = (.ok b, u) ↔ ∃ a, x.run s = (.ok a, u) ∧ f a = b := by
  rw [← bind_pure_comp, bind_eq_ok_iff]
  constructor
  · rintro ⟨a, t, ha, hf⟩
    obtain ⟨rfl, rfl⟩ := pure_eq_ok_iff.1 hf
    exact ⟨a, ha, rfl⟩
  · rintro ⟨a, ha, rfl⟩
    exact ⟨a, u, ha, rfl⟩

theorem mapM_cons_eq_ok_iff {f : α → ExceptT ε (StateM σ) β} {x : α} {xs : List α} {ys : List β}
    {s u : σ} :
    ((x :: xs).mapM f).run s = (.ok ys, u) ↔
      ∃ z t zs, (f x).run s = (.ok z, t) ∧ (xs.mapM f).run t = (.ok zs, u) ∧ ys = z :: zs := by
  rw [List.mapM_cons, bind_eq_ok_iff]
  constructor
  · rintro ⟨z, t, hz, h⟩
    obtain ⟨zs, t', hzs, h⟩ := bind_eq_ok_iff.1 h
    obtain ⟨rfl, rfl⟩ := pure_eq_ok_iff.1 h
    exact ⟨z, t, zs, hz, hzs, rfl⟩
  · rintro ⟨z, t, zs, hz, hzs, rfl⟩
    exact ⟨z, t, hz, bind_eq_ok_iff.2 ⟨zs, u, hzs, rfl⟩⟩

/-- Parts that are done one after the other fail with the first that fails, where those before it
have left off; those after it are not even tried. -/
theorem mapM_eq_error_iff {f : α → ExceptT ε (StateM σ) β} {xs : List α} {s u : σ} {e : ε} :
    (xs.mapM f).run s = (.error e, u) ↔
      ∃ before x after ys t, xs = before ++ x :: after ∧ (before.mapM f).run s = (.ok ys, t) ∧
        (f x).run t = (.error e, u) := by
  induction xs generalizing s with
  | nil =>
    constructor
    · intro h
      cases h
    · rintro ⟨before, x, after, ys, t, hxs, -⟩
      simp at hxs
  | cons x xs ih =>
    rw [List.mapM_cons, bind_eq_error_iff]
    constructor
    · rintro (hx | ⟨y, t, hy, h⟩)
      · exact ⟨[], x, xs, [], s, rfl, rfl, hx⟩
      · rcases bind_eq_error_iff.1 h with h | ⟨ys, t', -, h⟩
        · obtain ⟨before, x', after, ys, t', rfl, hys, hx'⟩ := ih.1 h
          exact ⟨x :: before, x', after, y :: ys, t', rfl,
            mapM_cons_eq_ok_iff.2 ⟨y, t, ys, hy, hys, rfl⟩, hx'⟩
        · cases h
    · rintro ⟨_ | ⟨b, before⟩, x', after, ys, t, hxs, hys, hx'⟩
      · cases hxs
        cases hys
        exact .inl hx'
      · cases hxs
        obtain ⟨z, t', zs, hz, hzs, rfl⟩ := mapM_cons_eq_ok_iff.1 hys
        exact .inr ⟨z, t', hz, bind_eq_error_iff.2 (.inl (ih.2 ⟨before, x', after, zs, t, rfl, hzs, hx'⟩))⟩

theorem except_bind_eq_ok_iff {x : Except ε α} {f : α → Except ε β} {b : β} :
    x >>= f = .ok b ↔ ∃ a, x = .ok a ∧ f a = .ok b := by
  cases x with
  | error e =>
    constructor
    · intro h
      cases h
    · rintro ⟨a, ha, -⟩
      cases ha
  | ok a =>
    constructor
    · exact fun h => ⟨a, rfl, h⟩
    · rintro ⟨a', ha, h⟩
      exact Except.ok.inj ha ▸ h

theorem except_map_eq_ok_iff {x : Except ε α} {f : α → β} {b : β} :
    x.map f = .ok b ↔ ∃ a, x = .ok a ∧ f a = b := by
  cases x with
  | error e =>
    constructor
    · intro h
      cases h
    · rintro ⟨a, ha, -⟩
      cases ha
  | ok a =>
    constructor
    · exact fun h => ⟨a, rfl, Except.ok.inj h⟩
    · rintro ⟨a', ha, rfl⟩
      cases ha
      rfl

theorem except_map_eq_error_iff {x : Except ε α} {f : α → β} {e : ε} :
    x.map f = .error e ↔ x = .error e := by
  cases x with
  | error e' => exact ⟨fun h => congrArg _ (Except.error.inj h), fun h => congrArg _ (Except.error.inj h)⟩
  | ok a => exact ⟨fun h => (by cases h), fun h => (by cases h)⟩

theorem mapError_eq_ok_iff {ε' : Type} {x : Except ε α} {f : ε → ε'} {a : α} :
    x.mapError f = .ok a ↔ x = .ok a := by
  cases x with
  | error e => exact ⟨fun h => (by cases h), fun h => (by cases h)⟩
  | ok b =>
    exact ⟨fun h => congrArg Except.ok (Except.ok.inj h), fun h => congrArg Except.ok (Except.ok.inj h)⟩

theorem eq_ok_of_toOption {x : Except ε α × σ} {a : α} (h : x.1.toOption = some a) :
    x = (.ok a, x.2) := by
  rcases x with ⟨_ | b, t⟩
  · cases h
  · rw [Option.some.inj h]

theorem exists_eq_error_of_isOk {x : Except ε α} (h : x.isOk = false) : ∃ e, x = .error e := by
  cases x with
  | error e => exact ⟨e, rfl⟩
  | ok a => cases h

end ClusterPackages.Run
