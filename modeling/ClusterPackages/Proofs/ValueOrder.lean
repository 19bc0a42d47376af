import ClusterPackages.Document.Decoder
import ClusterPackages.Proofs.TextMap

/-! The order of the entries of a value. Values that are read as they are have theirs in the order of
the keys, at every depth; a value that is written has them in the order of its fields, and a tree that
is made of it sorts them. So a value is one tree as it is written and another as it is kept. -/

namespace ClusterPackages

namespace TextMap

variable {α : Type}

theorem insert_perm {k : String} (x : α) {m : TextMap α} (h : k ∉ m.map Prod.fst) :
    (m.insert k x).Perm ((k, x) :: m) := by
  induction m with
  | nil => rfl
  | cons e m ih =>
    rw [List.map_cons, List.mem_cons, not_or] at h
    rw [insert]
    split_ifs with hlt heq
    · rfl
    · exact absurd heq h.1
    · exact ((ih h.2).cons e).trans (.swap _ _ _)

theorem foldl_insert_perm (es : List (String × α)) (m : TextMap α)
    (h : ((m ++ es).map Prod.fst).Nodup) :
    (es.foldl (fun m e => m.insert e.1 e.2) m).Perm (m ++ es) := by
  induction es generalizing m with
  | nil => rw [List.append_nil, List.foldl_nil]
  | cons e es ih =>
    have hperm : (m ++ e :: es).Perm ((e :: m) ++ es) := List.perm_middle
    have hnodup := (hperm.map Prod.fst).nodup_iff.1 h
    have hmem : e.1 ∉ m.map Prod.fst := fun he =>
      (List.nodup_cons.1 hnodup).1
        (List.map_append (f := Prod.fst) ▸ List.mem_append_left (es.map Prod.fst) he)
    have hins := (insert_perm e.2 hmem).append_right es
    exact (ih _ ((hins.map Prod.fst).nodup_iff.2 hnodup)).trans (hins.trans hperm.symm)

theorem ofEntries_perm {es : List (String × α)} (h : (es.map Prod.fst).Nodup) :
    (ofEntries es).Perm es :=
  foldl_insert_perm es [] h

theorem isSorted_ofEntries (es : List (String × α)) : (ofEntries es).IsSorted := by
  rw [ofEntries]
  suffices h : ∀ m : TextMap α, m.IsSorted → (es.foldl (fun m e => m.insert e.1 e.2) m).IsSorted from
    h [] isSorted_nil
  induction es with
  | nil => exact fun m hm => hm
  | cons e es ih => exact fun m hm => ih _ (isSorted_insert hm e.1 e.2)

theorem mem_of_mem_ofEntries {es : List (String × α)} {e : String × α} (h : e ∈ ofEntries es) :
    e ∈ es := by
  rw [ofEntries] at h
  suffices H : ∀ m : TextMap α, e ∈ es.foldl (fun m e => m.insert e.1 e.2) m → e ∈ m ∨ e ∈ es from
    (H [] h).resolve_left List.not_mem_nil
  clear h
  induction es with
  | nil => exact fun m hm => .inl hm
  | cons d es ih =>
    intro m hm
    rcases ih _ hm with h | h
    · exact (mem_of_mem_insert h).elim (fun h => .inr (h ▸ List.mem_cons_self)) .inl
    · exact .inr (List.mem_cons_of_mem _ h)

theorem IsSorted.nodup_keys {m : TextMap α} (h : m.IsSorted) : (m.map Prod.fst).Nodup :=
  List.pairwise_map.2 (h.imp fun hlt => hlt.ne)

theorem ofEntries_of_isSorted {m : TextMap α} (h : m.IsSorted) : ofEntries m = m :=
  (ofEntries_perm h.nodup_keys).eq_of_pairwise (fun _ _ _ _ hab hba => absurd hba hab.not_gt)
    (isSorted_ofEntries m) h

end TextMap

namespace Value

mutual
/-- The entries of every object in it stand in the order of their keys. -/
def IsSorted : Value → Prop
  | .null | .bool _ | .int _ | .float _ | .text _ => True
  | .list items => AreSorted items
  | .object entries => TextMap.IsSorted entries ∧ EntriesAreSorted entries

def AreSorted : List Value → Prop
  | [] => True
  | v :: vs => IsSorted v ∧ AreSorted vs

def EntriesAreSorted : List (String × Value) → Prop
  | [] => True
  | (_, v) :: es => IsSorted v ∧ EntriesAreSorted es
end

mutual
/-- No object in it has two entries of one name. -/
def HasDistinctNames : Value → Prop
  | .null | .bool _ | .int _ | .float _ | .text _ => True
  | .list items => HaveDistinctNames items
  | .object entries => (entries.map Prod.fst).Nodup ∧ EntriesHaveDistinctNames entries

def HaveDistinctNames : List Value → Prop
  | [] => True
  | v :: vs => HasDistinctNames v ∧ HaveDistinctNames vs

def EntriesHaveDistinctNames : List (String × Value) → Prop
  | [] => True
  | (_, v) :: es => HasDistinctNames v ∧ EntriesHaveDistinctNames es
end

theorem entriesAreSorted_iff {es : List (String × Value)} :
    EntriesAreSorted es ↔ ∀ e ∈ es, e.2.IsSorted := by
  induction es with
  | nil => simp [EntriesAreSorted]
  | cons e es ih => rw [EntriesAreSorted, List.forall_mem_cons, ih]

theorem haveDistinctNames_iff {vs : List Value} :
    HaveDistinctNames vs ↔ ∀ v ∈ vs, v.HasDistinctNames := by
  induction vs with
  | nil => simp [HaveDistinctNames]
  | cons v vs ih => rw [HaveDistinctNames, List.forall_mem_cons, ih]

theorem entriesHaveDistinctNames_iff {es : List (String × Value)} :
    EntriesHaveDistinctNames es ↔ ∀ e ∈ es, e.2.HasDistinctNames := by
  induction es with
  | nil => simp [EntriesHaveDistinctNames]
  | cons e es ih => rw [EntriesHaveDistinctNames, List.forall_mem_cons, ih]

mutual
theorem IsSorted.hasDistinctNames : ∀ {v : Value}, v.IsSorted → v.HasDistinctNames
  | .null, _ | .bool _, _ | .int _, _ | .float _, _ | .text _, _ => by simp [HasDistinctNames]
  | .list _, h => by
    rw [IsSorted] at h
    rw [HasDistinctNames]
    exact AreSorted.haveDistinctNames h
  | .object _, h => by
    rw [IsSorted] at h
    rw [HasDistinctNames]
    exact ⟨h.1.nodup_keys, EntriesAreSorted.haveDistinctNames h.2⟩

theorem AreSorted.haveDistinctNames :
    ∀ {vs : List Value}, AreSorted vs → HaveDistinctNames vs
  | [], _ => by simp [HaveDistinctNames]
  | _ :: _, h => by
    rw [AreSorted] at h
    rw [HaveDistinctNames]
    exact ⟨IsSorted.hasDistinctNames h.1, AreSorted.haveDistinctNames h.2⟩

theorem EntriesAreSorted.haveDistinctNames :
    ∀ {es : List (String × Value)}, EntriesAreSorted es → EntriesHaveDistinctNames es
  | [], _ => by simp [EntriesHaveDistinctNames]
  | _ :: _, h => by
    rw [EntriesAreSorted] at h
    rw [EntriesHaveDistinctNames]
    exact ⟨IsSorted.hasDistinctNames h.1, EntriesAreSorted.haveDistinctNames h.2⟩
end

/-- The value with the entries of every object in the order of their keys. -/
def sorted (v : Value) : Value := v.toNode.toValue

theorem toValues_toNodes (vs : List Value) : Node.toValues (toNodes vs) = vs.map sorted := by
  induction vs with
  | nil => rfl
  | cons v vs ih => rw [toNodes, Node.toValues, ih, List.map_cons, sorted]

theorem toValueEntries_toEntries (es : List (String × Value)) :
    Node.toValueEntries (toEntries es) = es.map fun e => (e.1, e.2.sorted) := by
  induction es with
  | nil => rfl
  | cons e es ih => rw [toEntries, Node.text, Node.toValueEntries, ih, List.map_cons, sorted]

theorem sorted_list (vs : List Value) : (list vs).sorted = .list (vs.map sorted) := by
  rw [sorted, toNode, Node.toValue, toValues_toNodes]

theorem sorted_object (es : List (String × Value)) :
    (object es).sorted = .object (TextMap.ofEntries (es.map fun e => (e.1, e.2.sorted))) := by
  rw [sorted, toNode, Node.toValue, toValueEntries_toEntries]

mutual
theorem IsSorted.sorted_eq : ∀ {v : Value}, v.IsSorted → v.sorted = v
  | .null, _ | .bool _, _ | .int _, _ | .float _, _ | .text _, _ => rfl
  | .list _, h => by
    rw [IsSorted] at h
    rw [sorted_list, AreSorted.map_sorted_eq h]
  | .object _, h => by
    rw [IsSorted] at h
    rw [sorted_object, EntriesAreSorted.map_sorted_eq h.2, TextMap.ofEntries_of_isSorted h.1]

theorem AreSorted.map_sorted_eq : ∀ {vs : List Value}, AreSorted vs → vs.map sorted = vs
  | [], _ => rfl
  | _ :: _, h => by
    rw [AreSorted] at h
    rw [List.map_cons, IsSorted.sorted_eq h.1, AreSorted.map_sorted_eq h.2]

theorem EntriesAreSorted.map_sorted_eq : ∀ {es : List (String × Value)}, EntriesAreSorted es →
    (es.map fun e => (e.1, e.2.sorted)) = es
  | [], _ => rfl
  | _ :: _, h => by
    rw [EntriesAreSorted] at h
    rw [List.map_cons, IsSorted.sorted_eq h.1, EntriesAreSorted.map_sorted_eq h.2]
end

end Value

mutual
/-- What is read as it is comes out sorted. -/
theorem Node.isSorted_toValue : ∀ n : Node, n.toValue.IsSorted
  | .atom a => by cases a <;> simp [toValue, Value.IsSorted]
  | .scalar .. | .alias _ | .blank | .fault _ | .unreadable => by simp [toValue, Value.IsSorted]
  | .list _ ns => by
    rw [toValue, Value.IsSorted]
    exact areSorted_toValues ns
  | .record _ es => by
    rw [toValue, Value.IsSorted]
    refine ⟨TextMap.isSorted_ofEntries _, Value.entriesAreSorted_iff.2 fun e he => ?_⟩
    exact isSorted_toValueEntries es e (TextMap.mem_of_mem_ofEntries he)

theorem Node.areSorted_toValues : ∀ ns : List Node, Value.AreSorted (toValues ns)
  | [] => by simp [toValues, Value.AreSorted]
  | n :: ns => by
    rw [toValues, Value.AreSorted]
    exact ⟨isSorted_toValue n, areSorted_toValues ns⟩

theorem Node.isSorted_toValueEntries :
    ∀ es : List (Node × Node), ∀ e ∈ toValueEntries es, e.2.IsSorted
  | [] => by simp [toValueEntries]
  | (k, v) :: es => by
    have hv := isSorted_toValue v
    have hes := isSorted_toValueEntries es
    unfold toValueEntries
    split
    · rename_i heq
      cases heq
    · rename_i heq
      cases heq
      exact List.forall_mem_cons.2 ⟨hv, hes⟩
    · rename_i heq
      cases heq
      exact hes
end

end ClusterPackages
