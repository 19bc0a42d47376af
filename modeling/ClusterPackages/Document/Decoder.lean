import ClusterPackages.Document.Node

/-!
Decoders: how a node is read as a value of a wanted type. A JSON leaf has a type of its own; a
YAML leaf is taken as what the wanted type makes of its text.
-/

namespace ClusterPackages

/-- Counts how often an alias was followed. -/
abbrev Decode := StateT Nat (Except Fault)

def Decode.fail (f : Fault) : Decode α := throw f

structure Context where
  format : Format
  anchors : List (Nat × Node)
  jumpLimit : Nat
  depth : Option Nat

def Context.ofDocument (d : Document) : Context := ⟨d.format, d.anchors, d.jumpLimit, d.depthLimit⟩

abbrev Decoder (α : Type) := Context → Node → Decode α

def Context.inside (ctx : Context) : Decode Context :=
  match ctx.depth with
  | none => pure ctx
  | some 0 => Decode.fail .malformed
  | some (n + 1) => pure { ctx with depth := some n }

/-- Follows an alias; no alias stands for another one. -/
def Context.resolve (ctx : Context) (n : Node) : Decode Node :=
  match n with
  | .alias anchor => do
    let jumps ← get
    set (jumps + 1)
    if ctx.jumpLimit < jumps + 1 then Decode.fail .malformed
    else match ctx.anchors.lookup anchor with
      | some target => pure target
      | none => Decode.fail .malformed
  | n => pure n

/-! ## Spellings of leaves -/

namespace Scalar

def isNull (s : String) : Bool := s == "null" || s == "Null" || s == "NULL" || s == "~"

def bool? (s : String) : Option Bool :=
  if s == "true" || s == "True" || s == "TRUE" then some true
  else if s == "false" || s == "False" || s == "FALSE" then some false
  else none

def digits? (base : Nat) (cs : List Char) : Option Nat :=
  if cs = [] then none
  else cs.foldlM (fun n c => do
    let d ← Text.hexValue? c
    if d < base then some (base * n + d) else none) 0

/-- Digits with a zero in front of others are no number. -/
def isZeroFilled (cs : List Char) : Bool :=
  let cs := match cs with
    | '-' :: rest => rest
    | '+' :: rest => rest
    | _ => cs
  match cs with
  | '0' :: more => more ≠ [] && more.all Text.isDigit
  | _ => false

def marked? (cs : List Char) : Option Nat :=
  match cs with
  | '0' :: 'x' :: rest => digits? 16 rest
  | '0' :: 'o' :: rest => digits? 8 rest
  | '0' :: 'b' :: rest => digits? 2 rest
  | _ => none

/-- The whole number that a text spells, if any. A sign stands in front of everything. -/
def int? (cs : List Char) : Option Int :=
  let magnitude? (cs : List Char) : Option Nat :=
    match marked? cs with
    | some n => some n
    | none => if isZeroFilled cs then none else digits? 10 cs
  match cs with
  | '+' :: rest => (magnitude? rest).map Int.ofNat
  | '-' :: rest => (magnitude? rest).map fun n => -(n : Int)
  | _ => (magnitude? cs).map Int.ofNat

def isFloatChar (c : Char) : Bool :=
  Text.isDigit c || c == '.' || c == 'e' || c == 'E' || c == '+' || c == '-'

def decimal? (negative : Bool) (cs : List Char) : Option Binary64 :=
  let whole := cs.takeWhile Text.isDigit
  let rest := cs.dropWhile Text.isDigit
  let (fraction, rest) := match rest with
    | '.' :: rest => (rest.takeWhile Text.isDigit, rest.dropWhile Text.isDigit)
    | _ => ([], rest)
  if whole = [] ∧ fraction = [] then none
  else
    let digits := Text.decimal (whole ++ fraction)
    let shift : Int := -(fraction.length : Int)
    match rest with
    | [] => Binary64.ofDecimal negative digits shift
    | c :: rest =>
      if c == 'e' || c == 'E' then
        let (down, rest) := match rest with
          | '-' :: rest => (true, rest)
          | '+' :: rest => (false, rest)
          | _ => (false, rest)
        if rest ≠ [] ∧ rest.all Text.isDigit then
          let n : Int := Text.decimal rest
          Binary64.ofDecimal negative digits (if down then shift - n else shift + n)
        else none
      else none

def float? (cs : List Char) : Option Atom :=
  let isInfinite (cs : List Char) : Bool :=
    cs == ['.', 'i', 'n', 'f'] || cs == ['.', 'I', 'n', 'f'] || cs == ['.', 'I', 'N', 'F']
  let isNaN : Bool :=
    cs == ['.', 'n', 'a', 'n'] || cs == ['.', 'N', 'a', 'N'] || cs == ['.', 'N', 'A', 'N']
  match cs with
  | '+' :: rest =>
    if isInfinite rest then some .nonFinite else (decimal? false rest).map Atom.float
  | '-' :: rest =>
    if isInfinite rest then some .nonFinite else (decimal? true rest).map Atom.float
  | _ =>
    if isInfinite cs || isNaN then some .nonFinite else (decimal? false cs).map Atom.float

/-- Whole numbers of raw values take sixty-four bits; of more, up to the double, none is taken. -/
def atomOfInt? (n : Int) : Option Atom :=
  if -9223372036854775808 ≤ n ∧ n < 18446744073709551616 then some (.int n) else none

def wideIntFits (n : Int) : Bool := -(Nat.pow 2 127 : Int) ≤ n && n < Nat.pow 2 128

def plainAtom? (s : String) : Option Atom :=
  let cs := s.toList
  if s == "" || isNull s then some .null
  else match bool? s with
    | some b => some (.bool b)
    | none =>
      match int? cs with
      | some n =>
        -- a number that not even a hundred and twenty-eight bits hold becomes a float
        if wideIntFits n then atomOfInt? n
        else some ((float? cs).getD (.text s))
      | none =>
        if isZeroFilled cs then some (.text s) else some ((float? cs).getD (.text s))

def nullTag : String := "tag:yaml.org,2002:null"
def boolTag : String := "tag:yaml.org,2002:bool"
def intTag : String := "tag:yaml.org,2002:int"
def floatTag : String := "tag:yaml.org,2002:float"

/-- A tag of the document's own, which names a variant. -/
def variantTag? (tag : Option String) : Option String :=
  match tag.map String.toList with
  | some ['!'] => some "!"
  | some ('!' :: rest) => some (String.ofList rest)
  | _ => none

def atom? (tag : Option String) (style : ScalarStyle) (s : String) : Option Atom :=
  if (variantTag? tag).isSome then none
  else match tag with
    | some t =>
      if t = boolTag then (bool? s).map Atom.bool
      else if t = intTag then
        match int? s.toList with
        | some n => atomOfInt? n
        | none => none
      else if t = floatTag then float? s.toList
      else if t = nullTag then (if isNull s then some .null else none)
      else some (.text s)
    | none => if style = .plain then plainAtom? s else some (.text s)

end Scalar

/-! ## Leaves -/

namespace Decoder

def fault (n : Node) : Fault :=
  match n with
  | .fault f => f
  | _ => .malformed

def text : Decoder String := fun ctx n => do
  match ← ctx.resolve n with
  | .atom (.text s) => pure s
  | .scalar _ _ s => pure s
  | n => Decode.fail (fault n)

/-- A leaf whose text is read as the wanted kind: plain, or a literal block that the tag names. -/
def readsAs (tag : Option String) (style : ScalarStyle) (wanted : String) : Bool :=
  style = .plain || (style = .literal && tag = some wanted)

def bool : Decoder Bool := fun ctx n => do
  match ← ctx.resolve n with
  | .atom (.bool b) => pure b
  | .scalar tag style s =>
    match Scalar.bool? s with
    | some b => if readsAs tag style Scalar.boolTag then pure b else Decode.fail .malformed
    | none => Decode.fail .malformed
  | n => Decode.fail (fault n)

def int (low high : Int) : Decoder Int := fun ctx n => do
  match ← ctx.resolve n with
  | .atom (.int i) => if low ≤ i ∧ i ≤ high then pure i else Decode.fail .malformed
  | .scalar tag style s =>
    match Scalar.int? s.toList with
    | some i =>
      if readsAs tag style Scalar.intTag ∧ low ≤ i ∧ i ≤ high then pure i
      else Decode.fail .malformed
    | none => Decode.fail .malformed
  | n => Decode.fail (fault n)

def isAbsent (n : Node) : Except Fault Bool :=
  match n with
  | .atom .null | .blank => .ok true
  | .scalar tag .plain s =>
    match tag with
    | none => .ok (s == "" || Scalar.isNull s)
    | some t =>
      if t = Scalar.nullTag then (if Scalar.isNull s then .ok true else .error .malformed)
      else .ok false
  | .fault f => .error f
  | _ => .ok false

def option (d : Decoder α) : Decoder (Option α) := fun ctx n => do
  let n ← ctx.resolve n
  if ← isAbsent n then pure none else some <$> d ctx n

/-! ## Containers -/

def isEmptyLeaf (n : Node) : Bool :=
  match n with
  | .blank => true
  | .scalar _ .plain s => s == ""
  | _ => false

def items (d : Decoder α) (ctx : Context) : List Node → Decode (List α)
  | [] => pure []
  | n :: ns => do
    let x ← d ctx n
    let xs ← items d ctx ns
    pure (x :: xs)

def list (d : Decoder α) : Decoder (List α) := fun ctx n => do
  match ← ctx.resolve n with
  | .list _ ns => do items d (← ctx.inside) ns
  | n => if isEmptyLeaf n then pure [] else Decode.fail (fault n)

def entries (d : Decoder α) (ctx : Context) : List (Node × Node) → Decode (List (String × α))
  | [] => pure []
  | (k, v) :: rest => do
    let key ← text ctx k
    let x ← d ctx v
    let xs ← entries d ctx rest
    pure ((key, x) :: xs)

/-- Maps from texts; of entries with one key the last stays. -/
def map (d : Decoder α) : Decoder (TextMap α) := fun ctx n => do
  match ← ctx.resolve n with
  | .record _ es => do return TextMap.ofEntries (← entries d (← ctx.inside) es)
  | n => if isEmptyLeaf n then pure [] else Decode.fail (fault n)

/-! ## Raw values -/

mutual
/-- Reads a node without knowing what it should be; aliases are left to `follow`. The result has
typed leaves only. -/
def settleWith (follow : Decoder Node) (ctx : Context) : Node → Decode Node
  | .alias a => follow ctx (.alias a)
  | .atom a => pure (.atom a)
  | .scalar tag style s =>
    match Scalar.atom? tag style s with
    | some a => pure (.atom a)
    | none => Decode.fail .malformed
  | .list tag ns => do
    if (Scalar.variantTag? tag).isSome then Decode.fail .malformed
    else return .list none (← settleItems follow (← ctx.inside) ns)
  | .record tag es => do
    if (Scalar.variantTag? tag).isSome then Decode.fail .malformed
    else return .record none (← settleEntries follow (← ctx.inside) es)
  | .blank => pure (.atom .null)
  | .fault f => Decode.fail f
  | .unreadable => Decode.fail .malformed

def settleItems (follow : Decoder Node) (ctx : Context) : List Node → Decode (List Node)
  | [] => pure []
  | n :: ns => do
    let x ← settleWith follow ctx n
    let xs ← settleItems follow ctx ns
    pure (x :: xs)

def settleEntries (follow : Decoder Node) (ctx : Context) :
    List (Node × Node) → Decode (List (Node × Node))
  | [] => pure []
  | (k, v) :: rest => do
    let key ← text ctx k
    let x ← settleWith follow ctx v
    let xs ← settleEntries follow ctx rest
    pure ((.text key, x) :: xs)
end

/-- Reads a node behind at most so many aliases within each other. -/
def settleBehind : Nat → Decoder Node
  | 0, _, _ => Decode.fail .malformed
  | fuel + 1, ctx, n => do settleWith (settleBehind fuel) ctx (← ctx.resolve n)

def settle : Decoder Node := fun ctx n => settleBehind (ctx.jumpLimit + 2) ctx n

end Decoder

mutual
/-- The value of a node with typed leaves; a float that is not finite becomes null. -/
def Node.toValue : Node → Value
  | .atom .null | .atom .nonFinite => .null
  | .atom (.bool b) => .bool b
  | .atom (.int n) => .int n
  | .atom (.float x) => .float x
  | .atom (.text s) => .text s
  | .list _ ns => .list (toValues ns)
  | .record _ es => .object (TextMap.ofEntries (toValueEntries es))
  | .scalar .. | .alias _ | .blank | .fault _ | .unreadable => .null

def Node.toValues : List Node → List Value
  | [] => []
  | n :: ns => n.toValue :: toValues ns

def Node.toValueEntries : List (Node × Node) → List (String × Value)
  | [] => []
  | (.atom (.text k), v) :: rest => (k, v.toValue) :: toValueEntries rest
  | _ :: rest => toValueEntries rest
end

def Decoder.raw : Decoder Value := fun ctx n => return (← Decoder.settle ctx n).toValue

/-- Runs a decoder on a whole document; what is wrong after the root is found last. -/
def Document.decode (d : Decoder α) (doc : Document) : Except Fault α := do
  let (x, _) ← (d (Context.ofDocument doc) doc.root).run 0
  match doc.ending with
  | none => .ok x
  | some f => .error f

end ClusterPackages
