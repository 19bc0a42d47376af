import ClusterPackages.Proofs.Await
import ClusterPackages.Proofs.Run
import ClusterPackages.Proofs.Writes
import Mathlib.Data.List.Forall2

/-! Applying updates to a store in memory. A run writes a prefix of the required updates, in order,
and stops at the first that is refused or, when it waits, at the first whose wait fails; that one
is written then too. `reached` is the state after such a prefix, and `Outcome` says what a run
answers; `applyItems_reached` is the induction over a run. -/

namespace ClusterPackages

namespace TextMap

variable {α : Type}

theorem erase_of_get?_eq_none {m : TextMap α} {k : String} (h : m.get? k = none) : m.erase k = m := by
  refine List.filter_eq_self.2 fun e he => ?_
  have hne := List.lookup_eq_none_iff.1 h e he
  rw [bne_iff_ne]
  rintro rfl
  simp at hne

end TextMap

namespace PackageStore

/-- What a watch of an object may tell: what its script holds, or the object itself if updates are
installed at once. -/
def Tells (s : PackageStore) (p : InstalledPackage) (event : PackageEvent) : Prop :=
  (∃ events, s.scripts.get? p.text = some events ∧ event ∈ events) ∨
    s.converges = true ∧ event = .modified p

/-- The scripts that watches of the updated objects leave. -/
def unwatched (s : PackageStore) (us : List UpdateItem) : TextMap (List PackageEvent) :=
  (us.filterMap fun u => (s.stored? u.package).map InstalledPackage.text).foldl
    (fun m k => m.erase k) s.scripts

theorem unwatched_snoc {s : PackageStore} {u : UpdateItem} {o : InstalledPackage}
    (ho : s.stored? u.package = some o) (us : List UpdateItem) :
    s.unwatched (us ++ [u]) = (s.unwatched us).erase o.text := by
  simp [unwatched, ho]

theorem get?_of_get?_unwatched {s : PackageStore} {us : List UpdateItem} {k : String}
    {events : List PackageEvent} (h : (s.unwatched us).get? k = some events) :
    s.scripts.get? k = some events := by
  unfold unwatched at h
  generalize us.filterMap _ = ks at h
  induction ks using List.reverseRecOn with
  | nil => exact h
  | append_singleton ks j ih =>
    rw [List.foldl_append, List.foldl_cons, List.foldl_nil] at h
    exact ih (TextMap.get?_of_get?_erase h)

theorem watch_snd (s : PackageStore) (p : InstalledPackage) :
    (s.watch p).2 = { s with scripts := s.scripts.erase p.text } := by
  unfold watch
  cases h : s.scripts.get? p.text with
  | some events => rfl
  | none => rw [TextMap.erase_of_get?_eq_none h]

/-- What the watch of an object tells after some updates were written and watched. -/
def told (s : PackageStore) (us : List UpdateItem) (p : InstalledPackage) : List PackageEvent :=
  match (s.unwatched us).get? p.text with
  | some events => events
  | none => if s.converges then [.modified p] else []

theorem tells_of_mem_told {s : PackageStore} {us : List UpdateItem} {p : InstalledPackage}
    {event : PackageEvent} (h : event ∈ s.told us p) : s.Tells p event := by
  unfold told at h
  cases hs : (s.unwatched us).get? p.text with
  | some events =>
    rw [hs] at h
    exact Or.inl ⟨events, get?_of_get?_unwatched hs, h⟩
  | none =>
    simp only [hs] at h
    split_ifs at h with hc
    · exact Or.inr ⟨hc, List.mem_singleton.1 h⟩
    · cases h

theorem watch_fst {s : PackageStore} {p : InstalledPackage} (hp : s.stored? p = some p) :
    (s.watch p).1 =
      match s.scripts.get? p.text with
      | some events => events
      | none => if s.converges then [.modified p] else [] := by
  unfold watch
  cases s.scripts.get? p.text with
  | some events => rfl
  | none => rw [hp]; rfl

end PackageStore

namespace Update

open PackageStore

/-! ## One update -/

/-- The state after some updates were written, of those that were tried. -/
def reached (isBlocking : Bool) (s : State) (written : List UpdateItem) (tried : ℕ) : State where
  store := { s.store.writes written with
    scripts := if isBlocking then s.store.unwatched written else s.store.scripts }
  asked := { s.asked with
    updates := s.asked.updates + tried
    watches := s.asked.watches + if isBlocking then written.length else 0 }

/-- How an update written as `p` ends after others: as it is, or as the wait for it ends. -/
def Ends (isBlocking : Bool) (s : PackageStore) (us : List UpdateItem) (p : InstalledPackage)
    (r : Except ClusterError InstalledPackage) : Prop :=
  if isBlocking then r = await p ((s.told us p).map .ok) else r = .ok p

theorem updateVersion_run (s : State) (p : InstalledPackage) (v : String) :
    (updateVersion p v).run s =
      ((s.store.updateVersion p v).1,
       { store := (s.store.updateVersion p v).2,
         asked := { s.asked with updates := s.asked.updates + 1 } }) := rfl

theorem watch_run (s : State) (p : InstalledPackage) :
    (watch p).run s =
      (.ok (s.store.watch p).1,
       { store := (s.store.watch p).2,
         asked := { s.asked with watches := s.asked.watches + 1 } }) := rfl

theorem reached_nil (isBlocking : Bool) (s : State) : reached isBlocking s [] 0 = s := by
  cases isBlocking <;> rfl

variable {s : State} {u : UpdateItem} {o : InstalledPackage} (isBlocking : Bool)
  (us : List UpdateItem) (n : ℕ)

theorem refusal?_reached (h : s.store.WellKeyed) :
    (reached isBlocking s us n).store.refusal? u = s.store.refusal? u :=
  refusal?_writes h us u

theorem applyItem_of_refused (h : s.store.WellKeyed) {e : ClusterError}
    (he : s.store.refusal? u = some e) :
    (applyItem isBlocking u).run (reached isBlocking s us n) =
      (.error e, reached isBlocking s us (n + 1)) := by
  have hrun : (updateVersion u.package u.version).run (reached isBlocking s us n) =
      (.error e, reached isBlocking s us (n + 1)) := by
    rw [updateVersion_run, updateVersion_of_refused ((refusal?_reached isBlocking us n h).trans he)]
    rfl
  exact Run.bind_of_error hrun

/-- The write of an update that is not refused, wherever the run stands. -/
theorem updateVersion_of_not_refused (h : s.store.WellKeyed) (hu : s.store.refusal? u = none)
    (ho : s.store.stored? u.package = some o) :
    (updateVersion u.package u.version).run (reached isBlocking s us n) =
      (.ok (moved s.store.converges u.version o),
       { store := (reached isBlocking s us n).store.write u,
         asked := { (reached isBlocking s us n).asked with
           updates := s.asked.updates + (n + 1) } }) := by
  obtain ⟨o', ho'⟩ := (((reached isBlocking s us n).store.refusal?_eq_none_iff u).1
    ((refusal?_reached isBlocking us n h).trans hu)).2
  have hmoved : moved s.store.converges u.version o' = moved s.store.converges u.version o := by
    have hmap := map_moved_stored?_writes h us u.version u.package
    rw [show (s.store.writes us).stored? u.package = some o' from ho', ho] at hmap
    exact Option.some.inj hmap
  have hc : (reached isBlocking s us n).store.converges = s.store.converges := writes_converges _ _
  rw [updateVersion_run, updateVersion_of_taken ((refusal?_reached isBlocking us n h).trans hu) ho',
    hc, hmoved]
  rfl

/-- Scripts play no part in what a write does. -/
theorem write_with_scripts (s : PackageStore) (m : TextMap (List PackageEvent)) (u : UpdateItem) :
    ({ s with scripts := m } : PackageStore).write u = { s.write u with scripts := m } := by
  have hs : ({ s with scripts := m } : PackageStore).stored? u.package = s.stored? u.package := rfl
  unfold write
  rw [hs]
  cases s.stored? u.package with
  | none => rfl
  | some o =>
    simp only [put]
    split <;> rfl

/-- The object at the place of an update, once the update is written. -/
theorem stored?_write_reached (h : s.store.WellKeyed) (ho : s.store.stored? u.package = some o) :
    ((reached isBlocking s us n).store.write u).stored? (moved s.store.converges u.version o) =
      some (moved s.store.converges u.version o) := by
  have hplace : IsSamePlace u.package (moved s.store.converges u.version o) :=
    (h.isSamePlace ho).symm.trans (isSamePlace_moved _ _ _).symm
  have hkeyed : (reached isBlocking s us n).store.WellKeyed := (h.writes us).of_eq rfl rfl
  have hc : (reached isBlocking s us n).store.converges = s.store.converges := writes_converges _ _
  rw [stored?_write hkeyed, if_pos hplace, hc, ← stored?_congr _ hplace]
  change ((s.store.writes us).stored? u.package).map _ = _
  rw [map_moved_stored?_writes h, ho]
  rfl

theorem applyItem_of_not_refused (h : s.store.WellKeyed) (hu : s.store.refusal? u = none)
    (ho : s.store.stored? u.package = some o) :
    ∃ r, Ends isBlocking s.store us (moved s.store.converges u.version o) r ∧
      (applyItem isBlocking u).run (reached isBlocking s us n) =
        (r, reached isBlocking s (us ++ [u]) (n + 1)) := by
  have hwrite := updateVersion_of_not_refused isBlocking us n h hu ho
  unfold applyItem
  rw [Run.bind_of_ok hwrite]
  set p := moved s.store.converges u.version o with hp
  cases isBlocking with
  | false =>
    refine ⟨.ok p, rfl, ?_⟩
    simp only [reached, write_with_scripts, writes_snoc]
    rfl
  | true =>
    have hstored := stored?_write_reached true us n h ho
    set st := (reached true s us n).store.write u with hst
    have hscripts : st.scripts = s.store.unwatched us := write_scripts _ _
    have htold : (st.watch p).1 = s.store.told us p := by
      have hc : st.converges = s.store.converges := (write_converges _ _).trans (writes_converges _ _)
      rw [watch_fst hstored, hscripts, hc]
      rfl
    have hleft : (st.watch p).2 = (reached true s (us ++ [u]) (n + 1)).store := by
      rw [watch_snd, hscripts, hst]
      simp only [reached, write_with_scripts, writes_snoc, unwatched_snoc ho, hp, text_moved, if_true]
    refine ⟨await p ((s.store.told us p).map .ok), rfl, ?_⟩
    simp only [if_true]
    rw [Run.bind_of_ok (watch_run _ p)]
    change (_, _) = _
    simp only [htold, hleft]
    simp only [reached, if_true, List.length_append, List.length_singleton, Nat.add_assoc]

theorem named_run (u : UpdateItem) {α : Type} (x : Write α) (s : State) :
    (named u x).run s =
      ((x.run s).1.mapError (ClusterError.updateFailed u.package.text), (x.run s).2) := by
  unfold named
  rw [Run.tryCatch_eq]
  rcases x.run s with ⟨_ | a, t⟩ <;> rfl

/-! ## A run -/

/-- Updates that were all taken, one after the other, and the objects that they ended with. -/
inductive Taken (isBlocking : Bool) (s : PackageStore) :
    List UpdateItem → List InstalledPackage → Prop
  | nil : Taken isBlocking s [] []
  | snoc {us ps u o p} (before : Taken isBlocking s us ps) (accepted : s.refusal? u = none)
      (stored : s.stored? u.package = some o)
      (ends : Ends isBlocking s us (moved s.converges u.version o) (.ok p)) :
      Taken isBlocking s (us ++ [u]) (ps ++ [p])

/-- How a run stops after it has done some updates, with the rest ahead: what it wrote, and what it
answers. -/
inductive Stops (isBlocking : Bool) (s : PackageStore) (done : List UpdateItem) :
    (rest written : List UpdateItem) → Except ClusterError (List InstalledPackage) → Prop
  | finished {ps} (taken : Taken isBlocking s done ps) : Stops isBlocking s done [] done (.ok ps)
  | refused {ps u later e} (taken : Taken isBlocking s done ps) (refused : s.refusal? u = some e) :
      Stops isBlocking s done (u :: later) done (.error (.updateFailed u.package.text e))
  | unconfirmed {ps u later o e} (taken : Taken isBlocking s done ps)
      (accepted : s.refusal? u = none) (stored : s.stored? u.package = some o)
      (ends : Ends isBlocking s done (moved s.converges u.version o) (.error e)) :
      Stops isBlocking s done (u :: later) (done ++ [u]) (.error (.updateFailed u.package.text e))

/-- A run from where some updates were taken goes on as one that did them all. -/
theorem applyItems_reached (h : s.store.WellKeyed) (items : List UpdateItem) :
    ∀ us ps, Taken isBlocking s.store us ps → ∃ done rest written answer,
      us ++ items = done ++ rest ∧
      (applyItems isBlocking items).run (reached isBlocking s us us.length) =
        (answer, reached isBlocking s written (done ++ rest.take 1).length) ∧
      Stops isBlocking s.store done rest written (answer.map (ps ++ ·)) := by
  -- on what is left to do: `us` grows by each update that is taken
  induction items with
  | nil =>
    intro us ps htaken
    refine ⟨us, [], us, .ok [], rfl, ?_, ?_⟩
    · rw [List.take_nil, List.append_nil]
      rfl
    · simpa [Except.map] using Stops.finished htaken
  | cons u items ih =>
    intro us ps htaken
    have htried : us.length + 1 = (us ++ (u :: items).take 1).length := by simp
    rw [applyItems]
    cases hu : s.store.refusal? u with
    | some e =>
      have hrun := named_run u (applyItem isBlocking u) (reached isBlocking s us us.length)
      rw [applyItem_of_refused isBlocking us us.length h hu] at hrun
      refine ⟨us, u :: items, us, .error (.updateFailed u.package.text e), rfl, ?_,
        .refused htaken hu⟩
      rw [Run.bind_of_error hrun, htried]
    | none =>
      obtain ⟨o, ho⟩ := ((s.store.refusal?_eq_none_iff u).1 hu).2
      obtain ⟨r, hends, hitem⟩ := applyItem_of_not_refused isBlocking us us.length h hu ho
      have hrun := named_run u (applyItem isBlocking u) (reached isBlocking s us us.length)
      rw [hitem] at hrun
      cases r with
      | error e =>
        refine ⟨us, u :: items, us ++ [u], .error (.updateFailed u.package.text e), rfl, ?_,
          .unconfirmed htaken hu ho hends⟩
        rw [Run.bind_of_error hrun, htried]
      | ok p =>
        obtain ⟨done, rest, written, answer, hitems, hrest, hstops⟩ :=
          ih (us ++ [u]) (ps ++ [p]) (.snoc htaken hu ho hends)
        refine ⟨done, rest, written, answer.map (p :: ·), ?_, ?_, ?_⟩
        · simpa using hitems
        · rw [List.length_append, List.length_singleton] at hrest
          rw [Run.bind_of_ok hrun, Run.bind_pure_eq, hrest]
        · cases answer with
          | error e => exact hstops
          | ok qs => simpa [Except.map] using hstops

/-- An object that a blocking run reports for an update: one that an event of its watch showed with
the new version wanted and installed. -/
def Confirmed (s : PackageStore) (u : UpdateItem) (p : InstalledPackage) : Prop :=
  ∃ o event, s.stored? u.package = some o ∧ s.Tells (moved s.converges u.version o) event ∧
    event.isDeleted = false ∧ event.object = p ∧
    IsAbout (moved s.converges u.version o) p ∧ IsInstalled p

theorem confirmed_of_ends {s : PackageStore} {us : List UpdateItem} {u : UpdateItem}
    {o p : InstalledPackage} (ho : s.stored? u.package = some o)
    (h : Ends true s us (moved s.converges u.version o) (.ok p)) : Confirmed s u p := by
  have hawait : await (moved s.converges u.version o)
      ((s.told us (moved s.converges u.version o)).map .ok) = .ok p := Eq.symm h
  rcases (await_eq_iff _ _ _).1 hawait with ⟨skipped, x, rest, hx, -, hdec⟩ | ⟨-, herr⟩
  · have hmem : x ∈ (s.told us (moved s.converges u.version o)).map .ok := by simp [hx]
    obtain ⟨event, hevent, rfl⟩ := List.mem_map.1 hmem
    cases hdec with
    | installed _ about stays installed =>
      exact ⟨o, event, ho, tells_of_mem_told hevent, stays, rfl, about, installed⟩
  · cases herr

theorem Taken.confirmed {s : PackageStore} {us : List UpdateItem} {ps : List InstalledPackage}
    (h : Taken true s us ps) : List.Forall₂ (Confirmed s) us ps := by
  induction h with
  | nil => exact .nil
  | snoc _ _ stored ends ih => exact List.rel_append ih (.cons (confirmed_of_ends stored ends) .nil)

theorem apply_reached (h : s.store.WellKeyed) (t : Transaction) :
    ∃ done rest written answer,
      t.items.filter UpdateItem.isRequired = done ++ rest ∧
      (apply isBlocking t).run s =
        (answer, reached isBlocking s written (done ++ rest.take 1).length) ∧
      Stops isBlocking s.store done rest written answer := by
  obtain ⟨done, rest, written, answer, hitems, hrun, hstops⟩ :=
    applyItems_reached isBlocking h (t.items.filter UpdateItem.isRequired) [] [] .nil
  rw [List.length_nil, reached_nil] at hrun
  have hanswer : answer.map ([] ++ ·) = answer := by cases answer <;> rfl
  rw [hanswer] at hstops
  exact ⟨done, rest, written, answer, hitems, hrun, hstops⟩

/-- A run that ends well has taken every required update. -/
theorem taken_of_apply (h : s.store.WellKeyed) {t : Transaction} {ps : List InstalledPackage}
    {s' : State} (hrun : (apply isBlocking t).run s = (.ok ps, s')) :
    Taken isBlocking s.store (t.items.filter UpdateItem.isRequired) ps ∧
      s'.store.clusterPackages = (s.store.writes (t.items.filter UpdateItem.isRequired)).clusterPackages ∧
      s'.store.packages = (s.store.writes (t.items.filter UpdateItem.isRequired)).packages := by
  obtain ⟨done, rest, written, answer, hitems, hreached, hstops⟩ := apply_reached isBlocking h t
  obtain ⟨hanswer, rfl⟩ := Prod.mk.inj (hreached.symm.trans hrun)
  rw [hanswer] at hstops
  cases hstops with
  | finished taken =>
    rw [hitems, List.append_nil]
    exact ⟨taken, rfl, rfl⟩

/-- A run writes a prefix of the required updates and changes nothing else. It ends well if that
prefix is all of them, and otherwise names the first update that failed. -/
theorem apply_writes_prefix (isBlocking : Bool) (t : Transaction) (s : State)
    (h : s.store.WellKeyed) :
    ∃ done rest written answer,
      t.items.filter UpdateItem.isRequired = done ++ rest ∧
      (apply isBlocking t).run s =
        (answer, reached isBlocking s written (done ++ rest.take 1).length) ∧
      Stops isBlocking s.store done rest written answer ∧
      (∀ q, ((apply isBlocking t).run s).2.store.stored? q =
        match lastAt written q with
        | some u => (s.store.stored? q).map fun o =>
            { o with
              spec := { o.spec with packageInfo := { o.spec.packageInfo with version := u.version } }
              status := if s.store.converges then
                  some { o.status.getD {} with version := u.version }
                else o.status }
        | none => s.store.stored? q) ∧
      ((apply isBlocking t).run s).2.store.refusing = s.store.refusing ∧
      ((apply isBlocking t).run s).2.store.converges = s.store.converges ∧
      (isBlocking = false → ((apply isBlocking t).run s).2.store.scripts = s.store.scripts) ∧
      (isBlocking = true → ∀ ps, answer = .ok ps → List.Forall₂ (Confirmed s.store) done ps) ∧
      ∀ t' : Transaction,
        t'.items.filter UpdateItem.isRequired = t.items.filter UpdateItem.isRequired →
          (apply isBlocking t').run s = (apply isBlocking t).run s := by
  obtain ⟨done, rest, written, answer, hitems, hrun, hstops⟩ := apply_reached isBlocking h t
  refine ⟨done, rest, written, answer, hitems, hrun, hstops, fun q => ?_, ?_, ?_, ?_, ?_,
    fun t' ht => ?_⟩
  · have hstore : ((apply isBlocking t).run s).2.store.stored? q =
        (s.store.writes written).stored? q := congrArg (·.2.store.stored? q) hrun
    rw [hstore, stored?_writes h]
    cases lastAt written q with
    | none => rfl
    | some u =>
      simp only
      congr 1
      funext o
      cases s.store.converges <;> rfl
  · rw [hrun]
    exact writes_refusing _ _
  · rw [hrun]
    exact writes_converges _ _
  · rintro rfl
    rw [hrun]
    rfl
  · rintro rfl ps rfl
    cases hstops with
    | finished taken => exact taken.confirmed
  · unfold apply
    rw [ht]

/-- A blocking run of three updates: the wait for the second is closed, so the third is not made. -/
theorem apply_writes_prefix_watchClosed :
    let a : InstalledPackage :=
      { kind := .clusterPackage, metadata := { name := "a" }, spec := { packageInfo := { name := "a" } } }
    let b := { a with metadata := { name := "b" } }
    let shown := moved true "2" a
    let s : State := { store := (ofList [a, b]).scriptWatch a [.added b, .modified shown] }
    let t : Transaction := { items := [⟨a, "2"⟩, ⟨a, ""⟩, ⟨b, "3"⟩, ⟨a, "4"⟩] }
    s.store.WellKeyed ∧ ∃ done rest written answer,
      [⟨a, "2"⟩, ⟨b, "3"⟩, ⟨a, "4"⟩] = done ++ rest ∧
      (apply true t).run s = (answer, reached true s written (done ++ rest.take 1).length) ∧
      Stops true s.store done rest written answer ∧
      (done ++ rest.take 1).length = 2 ∧ written.length = 2 := by
  intro a b shown s t
  have h : s.store.WellKeyed := (wellKeyed_ofList [a, b]).scriptWatch _ _
  obtain ⟨done, rest, written, answer, hitems, hrun, hstops, -⟩ := apply_writes_prefix true t s h
  refine ⟨h, done, rest, written, answer, hitems, hrun, hstops, ?_, ?_⟩
  · have hupdates : ((apply true t).run s).2.asked.updates = 2 := by decide +kernel
    rw [hrun] at hupdates
    simpa only [reached, s, zero_add] using hupdates
  · have hwatches : ((apply true t).run s).2.asked.watches = 2 := by decide +kernel
    rw [hrun] at hwatches
    simpa only [reached, s, zero_add, if_true] using hwatches

/-! ## Confirmation -/

/-- The first element that decides a wait gives its result, and an object is reported as updated
only if an event showed it with the new version wanted and installed. -/
theorem await_decided_and_apply_confirmed :
    (∀ (p : InstalledPackage) (stream : List (Except ClusterError PackageEvent))
      (r : Except ClusterError InstalledPackage),
      await p stream = r ↔
        (∃ skipped x rest, stream = skipped ++ x :: rest ∧ (∀ y ∈ skipped, IsSkipped p y) ∧
          Decides p x r) ∨
        (∀ y ∈ stream, IsSkipped p y) ∧ r = .error (.watchClosed p.text)) ∧
    ∀ (t : Transaction) (s s' : State) (ps : List InstalledPackage), s.store.WellKeyed →
      (apply true t).run s = (.ok ps, s') →
      List.Forall₂
        (fun u p => ∃ o event, s.store.stored? u.package = some o ∧
          s.store.Tells (moved s.store.converges u.version o) event ∧
          event.isDeleted = false ∧ event.object = p ∧
          p.kind = o.kind ∧ p.name = o.name ∧ p.namespace? = o.namespace? ∧
          (∀ a b, p.uid? = some a → o.uid? = some b → a = b) ∧
          p.desiredVersion = u.version ∧
          ∃ st, p.status = some st ∧ st.version = u.version ∧ st.version ≠ "")
        (t.items.filter UpdateItem.isRequired) ps := by
  refine ⟨await_eq_iff, fun t s s' ps h hrun => ?_⟩
  refine (taken_of_apply true h hrun).1.confirmed.imp fun u p hp => ?_
  obtain ⟨o, event, ho, htells, hstays, hobject, about, st, hst, hne, hversion⟩ := hp
  have hwanted : p.desiredVersion = u.version := about.wanted.trans (desiredVersion_moved _ _ _)
  obtain ⟨hkind, hname, hns, huid⟩ := moved_identity s.store.converges u.version o
  refine ⟨o, event, ho, htells, hstays, hobject, about.kind.trans hkind, about.name.trans hname,
    about.ns.trans hns, fun a b ha hb => about.uid a b ha (huid.trans hb), hwanted, st, hst,
    hversion.trans hwanted, hne⟩

/-- A wait that skips an event about another object and one about an older version. -/
theorem await_decided_and_apply_confirmed_skipping :
    let a : InstalledPackage :=
      { kind := .clusterPackage, metadata := { name := "a" }, spec := { packageInfo := { name := "a" } } }
    let b := { a with metadata := { name := "b" } }
    let shown := moved true "2" a
    let s : State :=
      { store := (ofList [a, b]).scriptWatch a [.added (moved true "2" b), .modified a, .modified shown] }
    let t : Transaction := { items := [⟨a, "2"⟩] }
    s.store.WellKeyed ∧ ∃ ps s', (apply true t).run s = (.ok ps, s') ∧ ps = [shown] ∧
      List.Forall₂ (fun (u : UpdateItem) p => p.desiredVersion = u.version ∧
        ∃ st, p.status = some st ∧ st.version = u.version ∧ st.version ≠ "") [⟨a, "2"⟩] ps := by
  intro a b shown s t
  have h : s.store.WellKeyed := (wellKeyed_ofList [a, b]).scriptWatch _ _
  have hok : ((apply true t).run s).1.toOption = some [shown] := by decide +kernel
  rcases hrun : (apply true t).run s with ⟨_ | ps, s'⟩
  · rw [hrun] at hok
    cases hok
  · rw [hrun] at hok
    refine ⟨h, ps, s', rfl, Option.some.inj hok, ?_⟩
    refine (await_decided_and_apply_confirmed.2 t s s' ps h hrun).imp fun u p hp => ?_
    obtain ⟨-, -, -, -, -, -, -, -, -, -, hwanted, hinstalled⟩ := hp
    exact ⟨hwanted, hinstalled⟩

end Update
end ClusterPackages
