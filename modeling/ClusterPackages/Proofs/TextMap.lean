import ClusterPackages.Document.Value
import Mathlib.Data.List.Basic
import Mathlib.Data.String.Basic

/-! Maps from texts keep their keys in strictly ascending order, so a key leads to at most one
entry, and looking it up finds exactly the entry that is there. -/

namespace ClusterPackages.TextMap

variable {α : Type}

def IsSorted (m : TextMap α) : Prop := List.Pairwise (fun a b => a.1 < b.1) m

theorem isSorted_nil : IsSorted ([] : TextMap α) := List.Pairwise.nil

theorem mem_of_mem_insert {k : String} {x : α} {m : TextMap α} {e : String × α}
    (h : e ∈ m.insert k x) : e = (k, x) ∨ e ∈ m := by
  induction m with
  | nil => simpa [insert] using h
  | cons d m ih =>
    rw [insert] at h
    split_ifs at h with hlt heq
    · exact List.mem_cons.1 h
    · rcases List.mem_cons.1 h with h | h
      · exact Or.inl h
      · exact Or.inr (List.mem_cons_of_mem _ h)
    · rcases List.mem_cons.1 h with h | h
      · exact Or.inr (h ▸ List.mem_cons_self)
      · exact (ih h).imp id (List.mem_cons_of_mem _)

theorem isSorted_insert {m : TextMap α} (h : m.IsSorted) (k : String) (x : α) :
    (m.insert k x).IsSorted := by
  induction m with
  | nil => exact List.pairwise_singleton _ _
  | cons d m ih =>
    obtain ⟨hd, hm⟩ := List.pairwise_cons.1 h
    rw [insert]
    split_ifs with hlt heq
    · refine List.pairwise_cons.2 ⟨fun e he => ?_, h⟩
      rcases List.mem_cons.1 he with rfl | he
      · exact hlt
      · exact lt_trans hlt (hd e he)
    · subst heq
      exact List.pairwise_cons.2 ⟨hd, hm⟩
    · refine List.pairwise_cons.2 ⟨fun e he => ?_, ih hm⟩
      rcases mem_of_mem_insert he with rfl | he
      · exact lt_of_le_of_ne (not_lt.1 hlt) (Ne.symm heq)
      · exact hd e he

theorem isSorted_erase {m : TextMap α} (h : m.IsSorted) (k : String) : (m.erase k).IsSorted :=
  List.Pairwise.filter _ h

theorem mem_of_get?_eq_some {m : TextMap α} {k : String} {x : α} (h : m.get? k = some x) :
    (k, x) ∈ m := by
  induction m with
  | nil => cases h
  | cons d m ih =>
    rw [get?_cons] at h
    split_ifs at h with hk
    · obtain rfl := Option.some.inj h
      exact hk ▸ List.mem_cons_self
    · exact List.mem_cons_of_mem _ (ih h)

theorem get?_eq_some_iff {m : TextMap α} (h : m.IsSorted) (k : String) (x : α) :
    m.get? k = some x ↔ (k, x) ∈ m := by
  refine ⟨mem_of_get?_eq_some, fun hx => ?_⟩
  induction m with
  | nil => cases hx
  | cons d m ih =>
    obtain ⟨hd, hm⟩ := List.pairwise_cons.1 h
    rw [get?_cons]
    rcases List.mem_cons.1 hx with rfl | hx
    · exact if_pos rfl
    · rw [if_neg (hd _ hx).ne', ih hm hx]

theorem get?_of_get?_erase {m : TextMap α} {k key : String} {x : α}
    (h : (m.erase k).get? key = some x) : m.get? key = some x := by
  rw [get?_erase] at h
  split_ifs at h
  exact h

/-- A sorted map is told by what it finds. -/
theorem eq_of_get? {m m' : TextMap α} (h : m.IsSorted) (h' : m'.IsSorted)
    (heq : ∀ k, m.get? k = m'.get? k) : m = m' := by
  have nodup {m : TextMap α} (h : m.IsSorted) : List.Nodup m :=
    h.imp fun hlt heq => hlt.ne (congrArg Prod.fst heq)
  have hperm : List.Perm m m' := by
    refine (List.perm_ext_iff_of_nodup (nodup h) (nodup h')).2 fun e => ?_
    rw [← get?_eq_some_iff h, ← get?_eq_some_iff h', heq]
  exact hperm.eq_of_pairwise (fun _ _ _ _ hab hba => absurd hba hab.not_gt) h h'

end ClusterPackages.TextMap
