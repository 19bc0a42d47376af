import ClusterPackages.Document.Yaml.Event

/-!
Reading YAML text into a document. Anchors are numbered by how many names are known when they
appear, so a name that is used again shares its number with the next new one; the node that began
last has the number.
-/

namespace ClusterPackages.Yaml

structure Anchors where
  /-- Names with their numbers, the latest first. -/
  names : List (List Char × Nat)
  targets : List (Nat × Nat)
  deriving Repr, Inhabited

namespace Anchors

def count (a : Anchors) : Nat := (a.names.map Prod.fst).eraseDups.length

def add (a : Anchors) (anchor : Option (List Char)) (event : Nat) : Anchors :=
  match anchor with
  | none => a
  | some name => ⟨(name, a.count) :: a.names, (a.count, event) :: a.targets⟩

end Anchors

/-- Events of one document with aliases as numbers; `none` where the document becomes unreadable. -/
inductive Item
  | leaf (tag : Option String) (style : ScalarStyle) (text : String)
  | alias (anchor : Nat)
  | openList (tag : Option String)
  | closeList
  | openRecord (tag : Option String)
  | closeRecord
  deriving Repr, Inhabited

inductive Ending
  | complete (rest : List Event)
  | noDocument
  | broken
  deriving Repr, Inhabited

def tagText (tag : Option (List Char)) : Option String := tag.map String.ofList

def items : List Event → (index : Nat) → Anchors → List Item × Anchors × Ending
  | [], _, a => ([], a, .broken)
  | e :: rest, index, a =>
    let next (i : Item) (a : Anchors) : List Item × Anchors × Ending :=
      let (is, a, ending) := items rest (index + 1) a
      (i :: is, a, ending)
    match e with
    | .documentStart => items rest index a
    | .documentEnd => ([], a, .complete rest)
    | .streamEnd => ([], a, .noDocument)
    | .alias name =>
      match a.names.lookup name with
      | some n => next (.alias n) a
      | none => ([], a, .broken)
    | .scalar anchor tag style text =>
      next (.leaf (tagText tag) style (String.ofList text)) (a.add anchor index)
    | .sequenceStart anchor tag => next (.openList (tagText tag)) (a.add anchor index)
    | .sequenceEnd => next .closeList a
    | .mappingStart anchor tag => next (.openRecord (tagText tag)) (a.add anchor index)
    | .mappingEnd => next .closeRecord a

def broken : Node := .fault .malformed

mutual
/-- The node that begins here, and the items after it; no items after a fault. -/
def node : (fuel : Nat) → List Item → Node × Option (List Item)
  | 0, _ => (broken, none)
  | fuel + 1, items =>
    match items with
    | .leaf tag style text :: rest => (.scalar tag style text, some rest)
    | .alias a :: rest => (.alias a, some rest)
    | .openList tag :: rest =>
      let (ns, after) := nodes fuel rest
      (.list tag ns, after)
    | .openRecord tag :: rest =>
      let (es, after) := entries fuel rest
      (.record tag es, after)
    | _ => (broken, none)

def nodes : (fuel : Nat) → List Item → List Node × Option (List Item)
  | 0, _ => ([broken], none)
  | fuel + 1, items =>
    match items with
    | .closeList :: rest => ([], some rest)
    | _ =>
      match node fuel items with
      | (n, none) => ([n], none)
      | (n, some rest) =>
        let (ns, after) := nodes fuel rest
        (n :: ns, after)

def entries : (fuel : Nat) → List Item → List (Node × Node) × Option (List Item)
  | 0, _ => ([(broken, broken)], none)
  | fuel + 1, items =>
    match items with
    | .closeRecord :: rest => ([], some rest)
    | _ =>
      match node fuel items with
      | (k, none) => ([(k, broken)], none)
      | (k, some rest) =>
        match node fuel rest with
        | (v, none) => ([(k, v)], none)
        | (v, some rest) =>
          let (es, after) := entries fuel rest
          ((k, v) :: es, after)
end

def depthLimit : Nat := 128

/-- Aliases that may be followed for each event of the document. -/
def jumpsPerEvent : Nat := 100

def anchorTable (is : List Item) (a : Anchors) : List (Nat × Node) :=
  a.targets.map fun (n, event) => (n, (node (2 * is.length + 2) (is.drop event)).1)

/-- What is wrong after the first document: anything but the end. -/
def endingFault (ending : Ending) : Option Fault :=
  match ending with
  | .complete [.streamEnd] | .noDocument => none
  | .complete _ | .broken => some .malformed

def readEvents (events : List Event) : Document :=
  let (is, anchors, ending) := items events 0 ⟨[], []⟩
  let root := match is, ending with
    | [], .noDocument => .blank
    | _, _ => (node (2 * is.length + 2) is).1
  { format := .yaml, root, anchors := anchorTable is anchors,
    jumpLimit := jumpsPerEvent * max is.length 1, depthLimit := some depthLimit,
    ending := endingFault ending }

def read (cs : List Char) : Document := readEvents (Event.ofTokens (Token.ofText cs))

end ClusterPackages.Yaml
