import ClusterPackages.Document.Decoder

/-!
Records: values with named fields. A record lists its fields once, for reading and for writing;
reading starts from the record that an empty document stands for and sets what it finds.
-/

namespace ClusterPackages

structure Codec (α : Type) where
  decode : Decoder α
  encode : α → Value

structure Field (σ : Type) where
  name : String
  isRequired : Bool
  read : Context → Node → σ → Decode σ
  /-- Nothing if the field is left out. -/
  write : σ → Option Value

namespace Field

def mandatory (name : String) (c : Codec α) (get : σ → α) (set : α → σ → σ) : Field σ where
  name := name
  isRequired := true
  read ctx n x := return set (← c.decode ctx n) x
  write x := some (c.encode (get x))

/-- A field that keeps its first value if it is absent, and is always written. -/
def always (name : String) (c : Codec α) (get : σ → α) (set : α → σ → σ) : Field σ where
  name := name
  isRequired := false
  read ctx n x := return set (← c.decode ctx n) x
  write x := some (c.encode (get x))

def omitIf (isEmpty : α → Bool) (name : String) (c : Codec α) (get : σ → α) (set : α → σ → σ) :
    Field σ where
  name := name
  isRequired := false
  read ctx n x := return set (← c.decode ctx n) x
  write x := if isEmpty (get x) then none else some (c.encode (get x))

/-- A field that may be absent or null. -/
def optional (name : String) (c : Codec α) (get : σ → Option α) (set : Option α → σ → σ) :
    Field σ where
  name := name
  isRequired := false
  read ctx n x := return set (← Decoder.option c.decode ctx n) x
  write x := (get x).map c.encode

/-- A field for which null is the value `blank`, and which is always written. -/
def nullable (blank : α) (name : String) (c : Codec α) (get : σ → α) (set : α → σ → σ) :
    Field σ where
  name := name
  isRequired := false
  read ctx n x := return set ((← Decoder.option c.decode ctx n).getD blank) x
  write x := some (c.encode (get x))

end Field

structure RecordRules where
  /-- A field may come again; the last one counts. -/
  repeats : Bool
  /-- A list that gives the fields in their order is a record too, except in YAML. -/
  positional : Bool

def RecordRules.strict : RecordRules := ⟨false, true⟩

def RecordRules.lenient : RecordRules := ⟨true, false⟩

namespace Record

/-- Reads entries into a record; entries of no field are skipped. Returns the names met. -/
def readEntries (rules : RecordRules) (fields : List (Field σ)) (ctx : Context) :
    List String → σ → List (Node × Node) → Decode (List String × σ)
  | seen, x, [] => pure (seen, x)
  | seen, x, (k, v) :: rest => do
    let key ← Decoder.text ctx k
    match fields.find? (·.name == key) with
    | none =>
      v.skip
      readEntries rules fields ctx seen x rest
    | some f =>
      if !rules.repeats && seen.contains key then Decode.fail (.duplicateField key)
      else
        let x ← f.read ctx v x
        readEntries rules fields ctx (key :: seen) x rest

def missing? (fields : List (Field σ)) (seen : List String) : Option String :=
  (fields.find? fun f => f.isRequired && !seen.contains f.name).map Field.name

def readPositions (ctx : Context) : List (Field σ) → σ → List Node → Decode σ
  | [], x, [] => pure x
  | [], _, n :: _ => Decode.fail (Decoder.fault n)
  | f :: fs, x, [] => if f.isRequired then Decode.fail .malformed else readPositions ctx fs x []
  | f :: fs, x, n :: ns => do readPositions ctx fs (← f.read ctx n x) ns

def fromEntries (rules : RecordRules) (fields : List (Field σ)) (first : σ) (ctx : Context)
    (entries : List (Node × Node)) : Decode σ := do
  let (seen, x) ← readEntries rules fields ctx [] first entries
  match missing? fields seen with
  | some name => Decode.fail (.missingField name)
  | none => pure x

def decode (rules : RecordRules) (fields : List (Field σ)) (first : σ) : Decoder σ := fun ctx n => do
  match ← ctx.resolve n with
  | .record _ es => do fromEntries rules fields first (← ctx.inside) es
  | .list tag ns =>
    if rules.positional ∧ ctx.format ≠ .yaml then do
      readPositions (← ctx.inside) fields first ns
    else Decode.fail (Decoder.fault (.list tag ns))
  | n =>
    if Decoder.isEmptyLeaf n then fromEntries rules fields first ctx []
    else Decode.fail (Decoder.fault n)

def encode (fields : List (Field σ)) (x : σ) : Value :=
  .object (fields.filterMap fun f => (f.write x).map fun v => (f.name, v))

end Record

namespace Codec

def record (rules : RecordRules) (fields : List (Field σ)) (first : σ) : Codec σ :=
  ⟨Record.decode rules fields first, Record.encode fields⟩

def text : Codec String := ⟨Decoder.text, .text⟩

def bool : Codec Bool := ⟨Decoder.bool, .bool⟩

def int32 : Codec Int := ⟨Decoder.int (-2147483648) 2147483647, .int⟩

def int64 : Codec Int := ⟨Decoder.int (-9223372036854775808) 9223372036854775807, .int⟩

def raw : Codec Value := ⟨Decoder.raw, id⟩

def list (c : Codec α) : Codec (List α) :=
  ⟨Decoder.list c.decode, fun xs => .list (xs.map c.encode)⟩

def map (c : Codec α) : Codec (TextMap α) :=
  ⟨Decoder.map c.decode, fun m => .object (List.map (fun e => (e.1, c.encode e.2)) m)⟩

end Codec

end ClusterPackages
