import ClusterPackages.Document.Yaml.Lexer

/-!
Events: the walk through the nodes of a YAML stream that its tokens describe. What the grammar
expects next is a state with a stack; a token that does not fit ends the walk.
-/

namespace ClusterPackages.Yaml

inductive Event
  | documentStart
  | documentEnd
  | streamEnd
  | alias (name : List Char)
  | scalar (anchor tag : Option (List Char)) (style : ScalarStyle) (text : List Char)
  | sequenceStart (anchor tag : Option (List Char))
  | sequenceEnd
  | mappingStart (anchor tag : Option (List Char))
  | mappingEnd
  deriving DecidableEq, Repr, Inhabited

inductive Expected
  | firstDocument
  | nextDocument
  | documentContent
  | documentEnd
  | blockNode
  | blockSequenceFirst
  | blockSequenceNext
  | indentlessSequenceNext
  | blockMappingFirstKey
  | blockMappingKey
  | blockMappingValue
  | flowSequenceFirst
  | flowSequenceNext
  | flowPairKey
  | flowPairValue
  | flowPairEnd
  | flowMappingFirstKey
  | flowMappingKey
  | flowMappingValue
  | flowMappingNoValue
  | nothing
  deriving DecidableEq, Repr, Inhabited

structure Grammar where
  tokens : List Token
  expected : Expected
  stack : List Expected
  /-- Tag handles with what they stand for. -/
  handles : List (List Char × List Char)
  deriving Repr, Inhabited

namespace Grammar

abbrev Step := Option (Event × Grammar)

def drop (g : Grammar) : Grammar := { g with tokens := g.tokens.drop 1 }

def expect (e : Expected) (g : Grammar) : Grammar := { g with expected := e }

def later (e : Expected) (g : Grammar) : Grammar := { g with stack := e :: g.stack }

/-- Goes back to what is expected around the node that ends here. -/
def leave (g : Grammar) : Grammar :=
  match g.stack with
  | e :: rest => { g with expected := e, stack := rest }
  | [] => { g with expected := .nothing }

/-- A node that is not written. -/
def emptyNode (g : Grammar) : Step := some (.scalar none none .plain [], g)

/-! ## Nodes -/

structure Properties where
  anchor : Option (List Char)
  tag : Option (List Char)

def resolveTag (g : Grammar) (handle suffix : List Char) : Option (List Char) :=
  if handle = [] then some suffix
  else (g.handles.lookup handle).map (· ++ suffix)

/-- An anchor and a tag, each at most once and in any order. -/
def properties (g : Grammar) : Option (Properties × Grammar) :=
  match g.tokens with
  | .anchor a :: .tag handle suffix :: rest | .tag handle suffix :: .anchor a :: rest => do
    return (⟨some a, some (← g.resolveTag handle suffix)⟩, { g with tokens := rest })
  | .anchor a :: rest => some (⟨some a, none⟩, { g with tokens := rest })
  | .tag handle suffix :: rest => do
    return (⟨none, some (← g.resolveTag handle suffix)⟩, { g with tokens := rest })
  | _ => some (⟨none, none⟩, g)

/-- The tag that leaves the choice to the reader is dropped from leaves. -/
def leafTag (tag : Option (List Char)) : Option (List Char) :=
  if tag = some ['!'] then none else tag

def node (block indentless : Bool) (g : Grammar) : Step :=
  match g.tokens with
  | .alias name :: _ => some (.alias name, g.leave.drop)
  | _ => do
    let (p, g) ← g.properties
    match g.tokens with
    | .scalar style text :: _ => some (.scalar p.anchor (leafTag p.tag) style text, g.leave.drop)
    | .flowSequenceStart :: _ =>
      some (.sequenceStart p.anchor p.tag, g.expect .flowSequenceFirst)
    | .flowMappingStart :: _ =>
      some (.mappingStart p.anchor p.tag, g.expect .flowMappingFirstKey)
    | t :: _ =>
      if indentless ∧ t = .blockEntry then
        some (.sequenceStart p.anchor p.tag, g.expect .indentlessSequenceNext)
      else if block ∧ t = .blockSequenceStart then
        some (.sequenceStart p.anchor p.tag, g.expect .blockSequenceFirst)
      else if block ∧ t = .blockMappingStart then
        some (.mappingStart p.anchor p.tag, g.expect .blockMappingFirstKey)
      else if p.anchor.isSome ∨ p.tag.isSome then
        some (.scalar p.anchor p.tag .plain [], g.leave)
      else none
    | [] => none

/-- A node, or an empty one if a token ends the place where it should stand. -/
def nodeUnless (ends : Token → Bool) (block indentless : Bool) (next : Expected) (g : Grammar) :
    Step :=
  match g.tokens with
  | t :: _ =>
    if ends t then (g.expect next).emptyNode else (g.later next).node block indentless
  | [] => none

/-! ## Documents -/

def standardHandles : List (List Char × List Char) :=
  [(['!'], ['!']), (['!', '!'], "tag:yaml.org,2002:".toList)]

/-- Directives in front of a document: at most one version, each handle at most once. -/
def directives : List Token → (versionSeen : Bool) → List (List Char × List Char) →
    Option (List (List Char × List Char) × List Token)
  | .versionDirective major minor :: rest, seen, handles =>
    if seen ∨ major ≠ 1 ∨ (minor ≠ 1 ∧ minor ≠ 2) then none else directives rest true handles
  | .tagDirective handle lead :: rest, seen, handles =>
    if (handles.lookup handle).isSome then none
    else directives rest seen (handles ++ [(handle, lead)])
  | rest, _, handles => some (handles, rest)

def isDirective : Token → Bool
  | .versionDirective .. | .tagDirective .. => true
  | _ => false

def explicitDocument (g : Grammar) : Step := do
  let (handles, tokens) ← directives g.tokens false []
  match tokens with
  | .documentStart :: rest =>
    let g := { g with tokens := rest, handles := handles ++ standardHandles }
    return (.documentStart, (g.later .documentEnd).expect .documentContent)
  | _ => none

def document (first : Bool) (g : Grammar) : Step :=
  let g := if first then g
    else { g with tokens := g.tokens.dropWhile (· == .documentEnd) }
  match g.tokens with
  | .streamEnd :: _ => some (.streamEnd, (g.expect .nothing).drop)
  | t :: _ =>
    if first ∧ !isDirective t ∧ t ≠ .documentStart then
      some (.documentStart,
        ({ g with handles := standardHandles }.later .documentEnd).expect .blockNode)
    else g.explicitDocument
  | [] => none

def endsDocument (t : Token) : Bool :=
  isDirective t || t == .documentStart || t == .documentEnd || t == .streamEnd

def documentContent (g : Grammar) : Step :=
  match g.tokens with
  | t :: _ => if endsDocument t then g.leave.emptyNode else g.node true false
  | [] => none

def documentEnd (g : Grammar) : Step :=
  match g.tokens with
  | [] => none
  | t :: _ =>
    let g := if t = .documentEnd then g.drop else g
    some (.documentEnd, g.expect .nextDocument)

/-! ## Block collections -/

def endsBlockEntry (t : Token) : Bool := t == .blockEntry || t == .blockEnd

def endsBlockPair (t : Token) : Bool := t == .key || t == .value || t == .blockEnd

def blockSequence (g : Grammar) : Step :=
  match g.tokens with
  | .blockEntry :: _ => g.drop.nodeUnless endsBlockEntry true false .blockSequenceNext
  | .blockEnd :: _ => some (.sequenceEnd, g.leave.drop)
  | _ => none

def indentlessSequence (g : Grammar) : Step :=
  match g.tokens with
  | .blockEntry :: _ =>
    g.drop.nodeUnless (fun t => endsBlockEntry t || endsBlockPair t) true false
      .indentlessSequenceNext
  | [] => none
  | _ => some (.sequenceEnd, g.leave)

def blockMappingKey (g : Grammar) : Step :=
  match g.tokens with
  | .key :: _ => g.drop.nodeUnless endsBlockPair true true .blockMappingValue
  | .blockEnd :: _ => some (.mappingEnd, g.leave.drop)
  | _ => none

def blockMappingValue (g : Grammar) : Step :=
  match g.tokens with
  | .value :: _ => g.drop.nodeUnless endsBlockPair true true .blockMappingKey
  | [] => none
  | _ => (g.expect .blockMappingKey).emptyNode

/-! ## Flow collections -/

/-- The comma before the next entry, if one is needed. -/
def separator (first : Bool) (g : Grammar) : Option Grammar :=
  if first then some g
  else match g.tokens with
    | .flowEntry :: _ => some g.drop
    | _ => none

def endsFlowSequence (t : Token) : Bool := t == .flowEntry || t == .flowSequenceEnd

def endsFlowMapping (t : Token) : Bool := t == .flowEntry || t == .flowMappingEnd

def flowSequence (first : Bool) (g : Grammar) : Step :=
  match g.tokens with
  | .flowSequenceEnd :: _ => some (.sequenceEnd, g.leave.drop)
  | _ => do
    let g ← g.separator first
    match g.tokens with
    | .key :: _ => some (.mappingStart none none, (g.expect .flowPairKey).drop)
    | .flowSequenceEnd :: _ => some (.sequenceEnd, g.leave.drop)
    | _ => (g.later .flowSequenceNext).node false false

/-- The key of a single pair in a list. A token that ends the missing key is passed over. -/
def flowPairKey (g : Grammar) : Step :=
  match g.tokens with
  | t :: _ =>
    if t = .value ∨ endsFlowSequence t then (g.drop.expect .flowPairValue).emptyNode
    else (g.later .flowPairValue).node false false
  | [] => none

def flowPairValue (g : Grammar) : Step :=
  match g.tokens with
  | .value :: _ => g.drop.nodeUnless endsFlowSequence false false .flowPairEnd
  | [] => none
  | _ => (g.expect .flowPairEnd).emptyNode

def flowPairEnd (g : Grammar) : Step :=
  if g.tokens = [] then none else some (.mappingEnd, g.expect .flowSequenceNext)

def flowMappingKey (first : Bool) (g : Grammar) : Step :=
  match g.tokens with
  | .flowMappingEnd :: _ => some (.mappingEnd, g.leave.drop)
  | _ => do
    let g ← g.separator first
    match g.tokens with
    | .key :: _ =>
      g.drop.nodeUnless (fun t => t == .value || endsFlowMapping t) false false .flowMappingValue
    | .flowMappingEnd :: _ => some (.mappingEnd, g.leave.drop)
    | _ => (g.later .flowMappingNoValue).node false false

def flowMappingValue (g : Grammar) : Step :=
  match g.tokens with
  | .value :: _ => g.drop.nodeUnless endsFlowMapping false false .flowMappingKey
  | [] => none
  | _ => (g.expect .flowMappingKey).emptyNode

def flowMappingNoValue (g : Grammar) : Step :=
  if g.tokens = [] then none else (g.expect .flowMappingKey).emptyNode

/-! ## The walk -/

def step (g : Grammar) : Step :=
  match g.expected with
  | .firstDocument => g.document true
  | .nextDocument => g.document false
  | .documentContent => g.documentContent
  | .documentEnd => g.documentEnd
  | .blockNode => g.node true false
  | .blockSequenceFirst => g.drop.blockSequence
  | .blockSequenceNext => g.blockSequence
  | .indentlessSequenceNext => g.indentlessSequence
  | .blockMappingFirstKey => g.drop.blockMappingKey
  | .blockMappingKey => g.blockMappingKey
  | .blockMappingValue => g.blockMappingValue
  | .flowSequenceFirst => g.drop.flowSequence true
  | .flowSequenceNext => g.flowSequence false
  | .flowPairKey => g.flowPairKey
  | .flowPairValue => g.flowPairValue
  | .flowPairEnd => g.flowPairEnd
  | .flowMappingFirstKey => g.drop.flowMappingKey true
  | .flowMappingKey => g.flowMappingKey false
  | .flowMappingValue => g.flowMappingValue
  | .flowMappingNoValue => g.flowMappingNoValue
  | .nothing => none

def run : (fuel : Nat) → Grammar → List Event
  | 0, _ => []
  | fuel + 1, g =>
    match g.step with
    | some (e, g) => e :: run fuel g
    | none => []

end Grammar

/-- The events of tokens; the last one is the end of the stream, unless there is a fault. -/
def Event.ofTokens (tokens : List Token) : List Event :=
  Grammar.run (4 * (tokens.length + 4))
    { tokens, expected := .firstDocument, stack := [], handles := [] }

end ClusterPackages.Yaml
