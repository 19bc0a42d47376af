import ClusterPackages.Document.Json
import Mathlib.Data.List.Basic

/-! Documents whose leaves have types of their own. JSON text spells what each leaf is, and a value that was
never written knows it anyway; so in a document of either kind no leaf waits for a reader to say what it
means, none is an alias, and none is a float that is no number. -/

namespace ClusterPackages

namespace Node

mutual
/-- A node with typed leaves, as far as it could be read. -/
def IsTyped : Node → Prop
  | .atom a => a ≠ .nonFinite
  | .list _ items => AreTyped items
  | .record _ entries => EntriesAreTyped entries
  | .fault _ | .unreadable => True
  | .scalar .. | .alias _ | .blank => False

def AreTyped : List Node → Prop
  | [] => True
  | n :: ns => IsTyped n ∧ AreTyped ns

def EntriesAreTyped : List (Node × Node) → Prop
  | [] => True
  | (k, v) :: rest => IsTyped k ∧ IsTyped v ∧ EntriesAreTyped rest
end

theorem isTyped_text (s : String) : IsTyped (text s) := by
  simp [text, IsTyped]

end Node

open Node

/-! ## Values that were never written -/

mutual
theorem Value.isTyped_toNode : ∀ v : Value, v.toNode.IsTyped
  | .null | .bool _ | .int _ | .float _ => by simp [toNode, IsTyped]
  | .text s => isTyped_text s
  | .list items => by
    rw [toNode, IsTyped]
    exact areTyped_toNodes items
  | .object entries => by
    rw [toNode, IsTyped]
    exact entriesAreTyped_toEntries entries

theorem Value.areTyped_toNodes : ∀ vs : List Value, AreTyped (Value.toNodes vs)
  | [] => by simp [toNodes, AreTyped]
  | v :: vs => by
    rw [toNodes, AreTyped]
    exact ⟨isTyped_toNode v, areTyped_toNodes vs⟩

theorem Value.entriesAreTyped_toEntries :
    ∀ es : List (String × Value), EntriesAreTyped (Value.toEntries es)
  | [] => by simp [toEntries, EntriesAreTyped]
  | (k, v) :: es => by
    rw [toEntries, EntriesAreTyped]
    exact ⟨isTyped_text k, isTyped_toNode v, entriesAreTyped_toEntries es⟩
end

/-! ## JSON text -/

namespace Json

theorem isTyped_floatNode (negative : Bool) (significand : Nat) (power : Int) :
    (floatNode negative significand power).IsTyped := by
  unfold floatNode
  split <;> simp [IsTyped]

theorem isTyped_exponentNode (negative : Bool) (significand : Nat) (power : Int) (down : Bool)
    (digits : List Char) : (exponentNode negative significand power down digits).IsTyped := by
  unfold exponentNode
  dsimp only
  split_ifs
  all_goals first
    | exact isTyped_floatNode _ _ _
    | simp [IsTyped]

theorem isTyped_wholeNode (negative : Bool) (n : Nat) : (wholeNode negative n).IsTyped := by
  unfold wholeNode
  split_ifs
  all_goals first
    | exact isTyped_floatNode _ _ _
    | simp [IsTyped]

theorem isTyped_stop (f : Fault) : (stop f).1.IsTyped := by
  simp [stop, IsTyped]

theorem isTyped_readExponent (negative : Bool) (significand : Nat) (power : Int) (cs : List Char) :
    (readExponent negative significand power cs).1.IsTyped := by
  unfold readExponent
  dsimp only
  split
  · exact isTyped_stop _
  · exact isTyped_exponentNode _ _ _ _ _

theorem isTyped_readNumber (negative : Bool) (cs : List Char) :
    (readNumber negative cs).1.IsTyped := by
  unfold readNumber
  dsimp only
  repeat' split
  all_goals first
    | exact isTyped_stop _
    | exact isTyped_readExponent _ _ _ _
    | exact isTyped_floatNode _ _ _
    | exact isTyped_wholeNode _ _

theorem isTyped_readTextNode (cs : List Char) : (readTextNode cs).1.IsTyped := by
  unfold readTextNode
  split
  · exact isTyped_text _
  · simp [IsTyped]
  · exact isTyped_stop _

theorem isTyped_readWord (word : List Char) {n : Node} (h : n.IsTyped) (cs : List Char) :
    (readWord word n cs).1.IsTyped := by
  induction word generalizing cs with
  | nil => exact h
  | cons w ws ih =>
    cases cs with
    | nil => exact isTyped_stop _
    | cons c cs =>
      rw [readWord]
      split_ifs
      · exact ih cs
      · exact isTyped_stop _

/-- What is read with some fuel has typed leaves, whatever the text. -/
structure ReadsTyped (fuel : Nat) : Prop where
  value : ∀ cs, (readValue fuel cs).1.IsTyped
  items : ∀ first cs, AreTyped (readItems fuel first cs).1
  entries : ∀ first cs, EntriesAreTyped (readEntries fuel first cs).1

theorem areTyped_fault (f : Fault) : AreTyped [.fault f] := by simp [AreTyped, IsTyped]

theorem entriesAreTyped_fault (f : Fault) : EntriesAreTyped [(.fault f, .fault f)] := by
  simp [EntriesAreTyped, IsTyped]

theorem isTyped_readValue_succ {fuel : Nat} (h : ReadsTyped fuel) (cs : List Char) :
    (readValue (fuel + 1) cs).1.IsTyped := by
  rw [readValue]
  split
  · exact isTyped_stop _
  · exact isTyped_readWord _ (by simp [IsTyped]) _
  · exact isTyped_readWord _ (by simp [IsTyped]) _
  · exact isTyped_readWord _ (by simp [IsTyped]) _
  · exact isTyped_readNumber _ _
  · exact isTyped_readTextNode _
  · rename_i rest _
    have hitems := h.items true rest
    generalize readItems fuel true rest = result at hitems ⊢
    simpa only [IsTyped] using hitems
  · rename_i rest _
    have hentries := h.entries true rest
    generalize readEntries fuel true rest = result at hentries ⊢
    simpa only [IsTyped] using hentries
  · split_ifs
    · exact isTyped_readNumber _ _
    · exact isTyped_stop _

/-- One step of reading, and what it leaves for the next. -/
theorem ReadsTyped.of_readValue {fuel : Nat} (h : ReadsTyped fuel) {cs : List Char} {n : Node}
    {after : Option (List Char)} (hn : readValue fuel cs = (n, after)) : n.IsTyped := by
  simpa only [hn] using h.value cs

theorem areTyped_readItems_succ {fuel : Nat} (h : ReadsTyped fuel) (first : Bool)
    (cs : List Char) : AreTyped (readItems (fuel + 1) first cs).1 := by
  rw [readItems]
  dsimp only
  split
  · exact areTyped_fault _
  · simp [AreTyped]
  · split_ifs
    · exact areTyped_fault _
    · split
      · exact areTyped_fault _
      · split
        · exact ⟨h.of_readValue ‹_›, trivial⟩
        · exact ⟨h.of_readValue ‹_›, h.items false _⟩
  · split_ifs
    · split
      · exact ⟨h.of_readValue ‹_›, trivial⟩
      · exact ⟨h.of_readValue ‹_›, h.items false _⟩
    · exact areTyped_fault _

theorem isTyped_of_readTextNode {cs : List Char} {k : Node} {after : Option (List Char)}
    (hk : readTextNode cs = (k, after)) : k.IsTyped := by
  simpa only [hk] using isTyped_readTextNode cs

theorem entriesAreTyped_readEntries_succ {fuel : Nat} (h : ReadsTyped fuel) (first : Bool)
    (cs : List Char) : EntriesAreTyped (readEntries (fuel + 1) first cs).1 := by
  have hkey {cs k after} (hk : readTextNode cs = (k, after)) : EntriesAreTyped [(k, k)] :=
    ⟨isTyped_of_readTextNode hk, isTyped_of_readTextNode hk, trivial⟩
  have hcolon {cs k after} (hk : readTextNode cs = (k, after)) (f : Fault) :
      EntriesAreTyped [(k, .fault f)] :=
    ⟨isTyped_of_readTextNode hk, trivial, trivial⟩
  have hentry {cs ds k v after rest} {more : List (Node × Node)} (hk : readTextNode cs = (k, after))
      (hv : readValue fuel ds = (v, rest)) (hmore : EntriesAreTyped more) :
      EntriesAreTyped ((k, v) :: more) :=
    ⟨isTyped_of_readTextNode hk, h.of_readValue hv, hmore⟩
  rw [readEntries]
  dsimp only
  -- The text ends, the braces close, or an entry is read, at once or after a comma.
  repeat' first
    | exact entriesAreTyped_fault _
    | exact trivial
    | exact hkey ‹_›
    | exact hcolon ‹_› _
    | exact hentry ‹_› ‹_› trivial
    | exact hentry ‹_› ‹_› (h.entries false _)
    | split

theorem readsTyped (fuel : Nat) : ReadsTyped fuel := by
  induction fuel with
  | zero =>
    refine ⟨fun cs => ?_, fun first cs => ?_, fun first cs => ?_⟩
    · rw [readValue]
      exact isTyped_stop _
    · rw [readItems]
      exact areTyped_fault _
    · rw [readEntries]
      exact entriesAreTyped_fault _
  | succ fuel ih =>
    exact ⟨isTyped_readValue_succ ih, areTyped_readItems_succ ih,
      entriesAreTyped_readEntries_succ ih⟩

theorem isTyped_root_read (cs : List Char) : (read cs).root.IsTyped :=
  (readsTyped (cs.length + 1)).value cs

end Json
end ClusterPackages
