import ClusterPackages.Document.Value

/-!
Nodes: a document as its text spells it. Reading goes from left to right and stops at the first
fault, so a node may end in one: what comes before it can still be used, and reaching it fails.
-/

namespace ClusterPackages

inductive Fault
  | missingField (name : String)
  | duplicateField (name : String)
  | unknownVariant (name : String)
  | unfinished
  | malformed
  deriving DecidableEq, Repr, Inhabited

def Fault.detail? : Fault → Option String
  | .missingField name => some ("missing field `" ++ name ++ "`")
  | .duplicateField name => some ("duplicate field `" ++ name ++ "`")
  | .unknownVariant name => some ("unknown variant `" ++ name ++ "`")
  | .unfinished | .malformed => none

inductive ScalarStyle
  | plain
  | quoted
  | literal
  | folded
  deriving DecidableEq, Repr, Inhabited

inductive Atom
  | null
  | bool (b : Bool)
  | int (n : Int)
  | float (x : Binary64)
  /-- A float beyond all numbers, or none at all. -/
  | nonFinite
  | text (s : String)
  deriving DecidableEq, Repr, Inhabited

inductive Node
  | atom (a : Atom)
  /-- A leaf whose reader decides what its text means. -/
  | scalar (tag : Option String) (style : ScalarStyle) (text : String)
  | list (tag : Option String) (items : List Node)
  | record (tag : Option String) (entries : List (Node × Node))
  | alias (anchor : Nat)
  | blank
  | fault (f : Fault)
  /-- A leaf that can be skipped but has no value. -/
  | unreadable
  deriving Repr, Inhabited

namespace Node

def text (s : String) : Node := .atom (.text s)

mutual
/-- Skips a node; only a fault inside it stops that. -/
def skip : Node → Except Fault Unit
  | .fault f => .error f
  | .list _ items => skipItems items
  | .record _ entries => skipEntries entries
  | .atom _ | .scalar .. | .alias _ | .blank | .unreadable => .ok ()

def skipItems : List Node → Except Fault Unit
  | [] => .ok ()
  | n :: ns => do
    skip n
    skipItems ns

def skipEntries : List (Node × Node) → Except Fault Unit
  | [] => .ok ()
  | (k, v) :: rest => do
    skip k
    skip v
    skipEntries rest
end

end Node

mutual
def Value.toNode : Value → Node
  | .null => .atom .null
  | .bool b => .atom (.bool b)
  | .int n => .atom (.int n)
  | .float x => .atom (.float x)
  | .text s => .text s
  | .list items => .list none (toNodes items)
  | .object entries => .record none (toEntries entries)

def Value.toNodes : List Value → List Node
  | [] => []
  | v :: vs => v.toNode :: toNodes vs

def Value.toEntries : List (String × Value) → List (Node × Node)
  | [] => []
  | (k, v) :: rest => (.text k, v.toNode) :: toEntries rest
end

inductive Format
  | json
  | yaml
  | tree
  deriving DecidableEq, Repr, Inhabited

structure Document where
  format : Format
  root : Node
  anchors : List (Nat × Node)
  jumpLimit : Nat
  depthLimit : Option Nat
  /-- What is wrong after the root. -/
  ending : Option Fault
  deriving Repr, Inhabited

def Document.ofValue (v : Value) : Document :=
  { format := .tree, root := v.toNode, anchors := [], jumpLimit := 0, depthLimit := none,
    ending := none }

end ClusterPackages
