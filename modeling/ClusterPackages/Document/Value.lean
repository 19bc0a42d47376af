import ClusterPackages.Document.Binary64

/-!
Values: what a document says once its spelling is gone. The entries of an object built from a
document are sorted by key, and of entries with one key the last stays.
-/

namespace ClusterPackages

inductive Value
  | null
  | bool (b : Bool)
  | int (n : Int)
  | float (x : Binary64)
  | text (s : String)
  | list (items : List Value)
  | object (entries : List (String × Value))
  deriving Repr, Inhabited

namespace Value

mutual
def beq : Value → Value → Bool
  | .null, .null => true
  | .bool a, .bool b => a == b
  | .int a, .int b => a == b
  | .float a, .float b => a == b
  | .text a, .text b => a == b
  | .list as, .list bs => beqList as bs
  | .object as, .object bs => beqEntries as bs
  | _, _ => false

def beqList : List Value → List Value → Bool
  | [], [] => true
  | a :: as, b :: bs => beq a b && beqList as bs
  | _, _ => false

def beqEntries : List (String × Value) → List (String × Value) → Bool
  | [], [] => true
  | (j, a) :: as, (k, b) :: bs => j == k && beq a b && beqEntries as bs
  | _, _ => false
end

mutual
theorem eq_of_beq : ∀ {a b : Value}, beq a b = true → a = b
  | .null, b, h => by cases b <;> simp_all [beq]
  | .bool _, b, h => by cases b <;> simp_all [beq]
  | .int _, b, h => by cases b <;> simp_all [beq]
  | .float _, b, h => by cases b <;> simp_all [beq]
  | .text _, b, h => by cases b <;> simp_all [beq]
  | .list as, b, h => by
    cases b <;> simp [beq] at h
    exact congrArg _ (eq_of_beqList h)
  | .object as, b, h => by
    cases b <;> simp [beq] at h
    exact congrArg _ (eq_of_beqEntries h)

theorem eq_of_beqList : ∀ {as bs : List Value}, beqList as bs = true → as = bs
  | [], bs, h => by cases bs <;> simp_all [beqList]
  | a :: as, bs, h => by
    cases bs with
    | nil => simp [beqList] at h
    | cons b bs =>
      simp only [beqList, Bool.and_eq_true] at h
      rw [eq_of_beq h.1, eq_of_beqList h.2]

theorem eq_of_beqEntries : ∀ {as bs : List (String × Value)}, beqEntries as bs = true → as = bs
  | [], bs, h => by cases bs <;> simp_all [beqEntries]
  | (j, a) :: as, bs, h => by
    cases bs with
    | nil => simp [beqEntries] at h
    | cons b bs =>
      obtain ⟨k, b⟩ := b
      simp only [beqEntries, Bool.and_eq_true, beq_iff_eq] at h
      rw [h.1.1, eq_of_beq h.1.2, eq_of_beqEntries h.2]
end

mutual
theorem beq_self : ∀ a : Value, beq a a = true
  | .null => rfl
  | .bool _ => by simp [beq]
  | .int _ => by simp [beq]
  | .float _ => by simp [beq]
  | .text _ => by simp [beq]
  | .list as => by simpa [beq] using beqList_self as
  | .object as => by simpa [beq] using beqEntries_self as

theorem beqList_self : ∀ as : List Value, beqList as as = true
  | [] => rfl
  | a :: as => by simp [beqList, beq_self a, beqList_self as]

theorem beqEntries_self : ∀ as : List (String × Value), beqEntries as as = true
  | [] => rfl
  | (j, a) :: as => by simp [beqEntries, beq_self a, beqEntries_self as]
end

instance : DecidableEq Value := fun a b =>
  if h : beq a b = true then isTrue (eq_of_beq h)
  else isFalse fun e => h (e ▸ beq_self a)

/-- The value under a key, of a value that may be no object. -/
def get? (v : Value) (key : String) : Option Value :=
  match v with
  | .object entries => entries.lookup key
  | _ => none

end Value

/-- Maps from texts, sorted by key. -/
abbrev TextMap (α : Type) := List (String × α)

namespace TextMap

def insert (key : String) (x : α) : TextMap α → TextMap α
  | [] => [(key, x)]
  | (k, y) :: rest =>
    if key < k then (key, x) :: (k, y) :: rest
    else if key = k then (key, x) :: rest
    else (k, y) :: insert key x rest

def erase (key : String) (m : TextMap α) : TextMap α := List.filter (·.1 != key) m

def get? (key : String) (m : TextMap α) : Option α := m.lookup key

def ofEntries (entries : List (String × α)) : TextMap α :=
  entries.foldl (fun m e => m.insert e.1 e.2) []

theorem get?_cons (key k : String) (x : α) (m : TextMap α) :
    get? key ((k, x) :: m) = if key = k then some x else get? key m := by
  rw [get?, List.lookup_cons]
  by_cases h : key = k
  · rw [if_pos h, h, beq_self_eq_true]
  · rw [if_neg h, beq_false_of_ne h, get?]

theorem get?_insert (key k : String) (x : α) (m : TextMap α) :
    get? key (m.insert k x) = if key = k then some x else get? key m := by
  induction m with
  | nil => rw [insert, get?_cons]
  | cons e m ih =>
    rw [insert]
    split
    · rw [get?_cons]
    · split
      · subst k
        rw [get?_cons, get?_cons]
        split <;> rfl
      · rw [get?_cons, ih, get?_cons]
        split
        · subst key
          rw [if_neg (fun h => by simp_all)]
        · rfl

theorem get?_erase (key k : String) (m : TextMap α) :
    get? key (m.erase k) = if key = k then none else get? key m := by
  induction m with
  | nil => simp [erase, get?]
  | cons e m ih =>
    obtain ⟨j, x⟩ := e
    rw [erase] at ih ⊢
    by_cases h : j = k
    · subst h
      rw [List.filter_cons_of_neg (by simp), ih, get?_cons]
      split <;> rfl
    · rw [List.filter_cons_of_pos (by simpa using h), get?_cons, ih, get?_cons]
      split
      · subst key
        rw [if_neg h]
      · rfl

end TextMap
end ClusterPackages
