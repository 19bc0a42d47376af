import ClusterPackages.Manifest
import ClusterPackages.Proofs.JsonNodes
import ClusterPackages.Proofs.Run
import ClusterPackages.Proofs.ValueOrder

/-! What can be read from nodes with typed leaves: numbers in their bounds, raw values that are sorted
and, where null stands for absence, no null. -/

namespace ClusterPackages

variable {α β σ : Type}

/-- Whatever is read with success has the property. -/
def Decode.Ensures (m : Decode α) (P : α → Prop) : Prop := ∀ j x k, m.run j = .ok (x, k) → P x

namespace Decode.Ensures

theorem pure {P : α → Prop} {x : α} (h : P x) : Decode.Ensures (Pure.pure x) P := by
  intro j y k hrun
  cases hrun
  exact h

theorem fail {P : α → Prop} (f : Fault) : (Decode.fail f).Ensures P := by
  intro j y k hrun
  cases hrun

theorem bind {P : α → Prop} {Q : β → Prop} {m : Decode α} {f : α → Decode β} (hm : m.Ensures P)
    (hf : ∀ x, P x → (f x).Ensures Q) : (m >>= f).Ensures Q := by
  intro j y k hrun
  obtain ⟨⟨x, i⟩, hx, hy⟩ := Run.except_bind_eq_ok_iff.1 hrun
  exact hf x (hm j x i hx) i y k hy

theorem of_forall {P : α → Prop} (m : Decode α) (h : ∀ x, P x) : m.Ensures P := fun _ x _ _ => h x

theorem bind_of_forall {Q : β → Prop} (m : Decode α) {f : α → Decode β} (hf : ∀ x, (f x).Ensures Q) :
    (m >>= f).Ensures Q :=
  (of_forall m fun _ => trivial).bind fun x _ => hf x

theorem map {P : α → Prop} {Q : β → Prop} {m : Decode α} {f : α → β} (hm : m.Ensures P)
    (hf : ∀ x, P x → Q (f x)) : (f <$> m).Ensures Q := by
  rw [← bind_pure_comp]
  exact hm.bind fun x hx => .pure (hf x hx)

end Decode.Ensures

/-- Whatever is read from typed nodes has the property. -/
def Decoder.Ensures (d : Decoder α) (P : α → Prop) : Prop :=
  ∀ ctx n, n.IsTyped → (d ctx n).Ensures P

/-- Reading a typed node as the field keeps a property of the record. -/
def Field.Keeps (f : Field σ) (P : σ → Prop) : Prop :=
  ∀ ctx n y, n.IsTyped → P y → (f.read ctx n y).Ensures P

namespace Decoder

theorem resolve_of_isTyped (ctx : Context) {n : Node} (h : n.IsTyped) : ctx.resolve n = pure n := by
  cases n with
  | atom | list | record | fault | unreadable => rfl
  | _ => exact absurd h (by simp [Node.IsTyped])

theorem ensures_trivial (d : Decoder α) : d.Ensures fun _ => True :=
  fun _ _ _ => .of_forall _ fun _ => trivial

theorem ensures_int (low high : Int) : (int low high).Ensures fun i => low ≤ i ∧ i ≤ high := by
  intro ctx n hn
  rw [int, resolve_of_isTyped ctx hn, pure_bind]
  split
  · split_ifs with h
    · exact .pure h
    · exact .fail _
  · split
    · split_ifs with h
      · exact .pure h.2
      · exact .fail _
    · exact .fail _
  · exact .fail _

/-! ### Raw values -/

theorem ensures_raw : raw.Ensures Value.IsSorted :=
  fun _ _ _ => .bind_of_forall _ fun n => .pure n.isSorted_toValue

/-- Null stands for absence, so a raw value that may be absent is never null itself. -/
theorem settleWith_ensures_ne_null (follow : Decoder Node) (ctx : Context) {n : Node} (hn : n.IsTyped)
    (hnull : n ≠ .atom .null) : (settleWith follow ctx n).Ensures fun m => m.toValue ≠ .null := by
  cases n with
  | atom a =>
    rw [settleWith]
    refine .pure ?_
    rw [Node.IsTyped] at hn
    cases a <;> simp_all [Node.toValue]
  | list tag ns =>
    rw [settleWith]
    split_ifs
    · exact .fail _
    · exact .bind_of_forall _ fun _ => .bind_of_forall _ fun _ => .pure (by simp [Node.toValue])
  | record tag es =>
    rw [settleWith]
    split_ifs
    · exact .fail _
    · exact .bind_of_forall _ fun _ => .bind_of_forall _ fun _ => .pure (by simp [Node.toValue])
  | fault => exact .fail _
  | unreadable => exact .fail _
  | _ => exact absurd hn (by simp [Node.IsTyped])

theorem settle_ensures_ne_null (ctx : Context) {n : Node} (hn : n.IsTyped)
    (hnull : n ≠ .atom .null) : (settle ctx n).Ensures fun m => m.toValue ≠ .null := by
  rw [settle, settleBehind, resolve_of_isTyped ctx hn, pure_bind]
  exact settleWith_ensures_ne_null _ ctx hn hnull

/-! ### Options and containers -/

theorem ensures_option {d : Decoder α} {P : α → Prop}
    (h : ∀ ctx n, n.IsTyped → n ≠ .atom .null → (d ctx n).Ensures P) :
    (option d).Ensures fun o => ∀ a ∈ o, P a := by
  intro ctx n hn
  rw [option, resolve_of_isTyped ctx hn, pure_bind]
  by_cases hnull : n = .atom .null
  · subst hnull
    exact .pure (by simp)
  · refine .bind_of_forall _ fun absent => ?_
    split_ifs
    · exact .pure (by simp)
    · exact (h ctx n hn hnull).map fun a ha b hb => Option.some.inj hb ▸ ha

theorem ensures_optional_raw : (option raw).Ensures fun o => ∀ v ∈ o, v ≠ .null ∧ v.IsSorted :=
  ensures_option fun ctx _ hn hnull =>
    (settle_ensures_ne_null ctx hn hnull).bind fun m hm => .pure ⟨hm, m.isSorted_toValue⟩

theorem items_ensures {d : Decoder α} {P : α → Prop} (h : d.Ensures P) (ctx : Context) {ns : List Node}
    (hns : Node.AreTyped ns) : (items d ctx ns).Ensures fun xs => ∀ x ∈ xs, P x := by
  induction ns with
  | nil => exact .pure (by simp)
  | cons n ns ih =>
    rw [Node.AreTyped] at hns
    rw [items]
    exact (h ctx n hns.1).bind fun x hx => (ih hns.2).bind fun xs hxs =>
      .pure (List.forall_mem_cons.2 ⟨hx, hxs⟩)

theorem ensures_list {d : Decoder α} {P : α → Prop} (h : d.Ensures P) :
    (list d).Ensures fun xs => ∀ x ∈ xs, P x := by
  intro ctx n hn
  rw [list, resolve_of_isTyped ctx hn, pure_bind]
  split
  · rw [Node.IsTyped] at hn
    exact .bind_of_forall _ fun ctx => items_ensures h ctx hn
  · split_ifs
    · exact .pure (by simp)
    · exact .fail _

theorem entries_ensures {d : Decoder α} {P : α → Prop} (h : d.Ensures P) (ctx : Context)
    {es : List (Node × Node)} (hes : Node.EntriesAreTyped es) :
    (entries d ctx es).Ensures fun xs => ∀ e ∈ xs, P e.2 := by
  induction es with
  | nil => exact .pure (by simp)
  | cons e es ih =>
    rw [Node.EntriesAreTyped] at hes
    rw [entries]
    exact .bind_of_forall _ fun k =>
      (h ctx e.2 hes.2.1).bind fun x hx => (ih hes.2.2).bind fun xs hxs =>
        .pure (List.forall_mem_cons.2 ⟨hx, hxs⟩)

theorem ensures_map_raw : (map raw).Ensures fun m => (Value.object m).IsSorted := by
  intro ctx n hn
  rw [map, resolve_of_isTyped ctx hn, pure_bind]
  split
  · rw [Node.IsTyped] at hn
    refine .bind_of_forall _ fun ctx =>
      (entries_ensures ensures_raw ctx hn).bind fun m hm => .pure ?_
    rw [Value.IsSorted, Value.entriesAreSorted_iff]
    exact ⟨TextMap.isSorted_ofEntries m, fun e he => hm e (TextMap.mem_of_mem_ofEntries he)⟩
  · split_ifs
    · exact .pure (by simp [Value.IsSorted, Value.EntriesAreSorted, TextMap.isSorted_nil])
    · exact .fail _

end Decoder

/-! ## Records -/

/-- A field that reads one value and sets it. -/
theorem Field.keeps_of_read_eq {f : Field σ} {d : Decoder α} {set : α → σ → σ} {P : α → Prop}
    {Q : σ → Prop} (hread : ∀ ctx n y, f.read ctx n y = d ctx n >>= fun a => pure (set a y))
    (hd : d.Ensures P) (hset : ∀ a y, P a → Q y → Q (set a y)) : f.Keeps Q := by
  intro ctx n y hn hy
  rw [hread]
  exact (hd ctx n hn).bind fun a ha => .pure (hset a y ha hy)

namespace Record

variable {fields : List (Field σ)} {P : σ → Prop}

theorem readEntries_ensures (rules : RecordRules) (h : ∀ f ∈ fields, f.Keeps P) (ctx : Context)
    (seen : List String) {x : σ} (hx : P x) {es : List (Node × Node)} (hes : Node.EntriesAreTyped es) :
    (readEntries rules fields ctx seen x es).Ensures fun r => P r.2 := by
  induction es generalizing seen x with
  | nil => exact .pure hx
  | cons e es ih =>
    rw [Node.EntriesAreTyped] at hes
    rw [readEntries]
    refine .bind_of_forall _ fun key => ?_
    split
    · exact .bind_of_forall _ fun _ => ih seen hx hes.2.2
    · rename_i f hf
      split_ifs
      · exact .fail _
      · exact (h f (List.mem_of_find?_eq_some hf) ctx e.2 x hes.2.1 hx).bind fun y hy =>
          ih (key :: seen) hy hes.2.2

theorem fromEntries_ensures (rules : RecordRules) (h : ∀ f ∈ fields, f.Keeps P) {first : σ}
    (hfirst : P first) (ctx : Context) {es : List (Node × Node)} (hes : Node.EntriesAreTyped es) :
    (fromEntries rules fields first ctx es).Ensures P := by
  refine (readEntries_ensures rules h ctx [] hfirst hes).bind fun ⟨seen, x⟩ hx => ?_
  dsimp only at hx ⊢
  split
  · exact .fail _
  · exact .pure hx

theorem readPositions_ensures (ctx : Context) {fs : List (Field σ)} (h : ∀ f ∈ fs, f.Keeps P) {x : σ}
    (hx : P x) {ns : List Node} (hns : Node.AreTyped ns) : (readPositions ctx fs x ns).Ensures P := by
  induction fs generalizing x ns with
  | nil =>
    cases ns with
    | nil => exact .pure hx
    | cons => exact .fail _
  | cons f fs ih =>
    obtain ⟨hf, hfs⟩ := List.forall_mem_cons.1 h
    cases ns with
    | nil =>
      rw [readPositions]
      split_ifs
      · exact .fail _
      · exact ih hfs hx hns
    | cons n ns =>
      rw [Node.AreTyped] at hns
      rw [readPositions]
      exact (hf ctx n x hns.1 hx).bind fun y hy => ih hfs hy hns.2

theorem ensures_decode (rules : RecordRules) (h : ∀ f ∈ fields, f.Keeps P) {first : σ} (hfirst : P first) :
    (decode rules fields first).Ensures P := by
  intro ctx n hn
  rw [decode, Decoder.resolve_of_isTyped ctx hn, pure_bind]
  split
  · rw [Node.IsTyped] at hn
    exact .bind_of_forall _ fun ctx =>
      fromEntries_ensures rules h hfirst ctx hn
  · rw [Node.IsTyped] at hn
    split_ifs
    · exact .bind_of_forall _ fun ctx =>
        readPositions_ensures ctx h hfirst hn
    · exact .fail _
  · split_ifs
    · exact fromEntries_ensures rules h hfirst ctx (by simp [Node.EntriesAreTyped])
    · exact .fail _

end Record
end ClusterPackages
