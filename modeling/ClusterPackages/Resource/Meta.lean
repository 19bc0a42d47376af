import ClusterPackages.Document.Record
import ClusterPackages.Timestamp

/-!
What every cluster object carries: its metadata, and the conditions of its status. Their fields
may come again or be null, which is as good as absent.
-/

namespace ClusterPackages

namespace Codec

def timestamp : Codec Timestamp where
  decode ctx n := do
    match Timestamp.ofText? (← Decoder.text ctx n) with
    | some t => pure t
    | none => Decode.fail .malformed
  encode t := .text t.text

end Codec

structure OwnerReference where
  apiVersion : String := ""
  blockOwnerDeletion : Option Bool := none
  controller : Option Bool := none
  kind : String := ""
  name : String := ""
  uid : String := ""
  deriving DecidableEq, Repr

namespace OwnerReference

def fields : List (Field OwnerReference) :=
  [.nullable "" "apiVersion" .text (·.apiVersion) (fun s x => { x with apiVersion := s }),
   .optional "blockOwnerDeletion" .bool (·.blockOwnerDeletion)
     (fun b x => { x with blockOwnerDeletion := b }),
   .optional "controller" .bool (·.controller) (fun b x => { x with controller := b }),
   .nullable "" "kind" .text (·.kind) (fun s x => { x with kind := s }),
   .nullable "" "name" .text (·.name) (fun s x => { x with name := s }),
   .nullable "" "uid" .text (·.uid) (fun s x => { x with uid := s })]

def codec : Codec OwnerReference := .record .lenient fields {}

end OwnerReference

/-- Which fields of an object someone looks after. -/
structure ManagedFields where
  apiVersion : Option String := none
  fieldsType : Option String := none
  fieldsV1 : Option Value := none
  manager : Option String := none
  operation : Option String := none
  subresource : Option String := none
  time : Option Timestamp := none
  deriving DecidableEq, Repr

namespace ManagedFields

def fields : List (Field ManagedFields) :=
  [.optional "apiVersion" .text (·.apiVersion) (fun s x => { x with apiVersion := s }),
   .optional "fieldsType" .text (·.fieldsType) (fun s x => { x with fieldsType := s }),
   .optional "fieldsV1" .raw (·.fieldsV1) (fun v x => { x with fieldsV1 := v }),
   .optional "manager" .text (·.manager) (fun s x => { x with manager := s }),
   .optional "operation" .text (·.operation) (fun s x => { x with operation := s }),
   .optional "subresource" .text (·.subresource) (fun s x => { x with subresource := s }),
   .optional "time" .timestamp (·.time) (fun t x => { x with time := t })]

def codec : Codec ManagedFields := .record .lenient fields {}

end ManagedFields

structure ObjectMeta where
  annotations : Option (TextMap String) := none
  creationTimestamp : Option Timestamp := none
  deletionGracePeriodSeconds : Option Int := none
  deletionTimestamp : Option Timestamp := none
  finalizers : Option (List String) := none
  generateName : Option String := none
  generation : Option Int := none
  labels : Option (TextMap String) := none
  managedFields : Option (List ManagedFields) := none
  name : Option String := none
  «namespace» : Option String := none
  ownerReferences : Option (List OwnerReference) := none
  resourceVersion : Option String := none
  selfLink : Option String := none
  uid : Option String := none
  deriving DecidableEq, Repr, Inhabited

namespace ObjectMeta

def fields : List (Field ObjectMeta) :=
  [.optional "annotations" (.map .text) (·.annotations) (fun m x => { x with annotations := m }),
   .optional "creationTimestamp" .timestamp (·.creationTimestamp)
     (fun t x => { x with creationTimestamp := t }),
   .optional "deletionGracePeriodSeconds" .int64 (·.deletionGracePeriodSeconds)
     (fun n x => { x with deletionGracePeriodSeconds := n }),
   .optional "deletionTimestamp" .timestamp (·.deletionTimestamp)
     (fun t x => { x with deletionTimestamp := t }),
   .optional "finalizers" (.list .text) (·.finalizers) (fun xs x => { x with finalizers := xs }),
   .optional "generateName" .text (·.generateName) (fun s x => { x with generateName := s }),
   .optional "generation" .int64 (·.generation) (fun n x => { x with generation := n }),
   .optional "labels" (.map .text) (·.labels) (fun m x => { x with labels := m }),
   .optional "managedFields" (.list ManagedFields.codec) (·.managedFields)
     (fun xs x => { x with managedFields := xs }),
   .optional "name" .text (·.name) (fun s x => { x with name := s }),
   .optional "namespace" .text (·.namespace) (fun s x => { x with «namespace» := s }),
   .optional "ownerReferences" (.list OwnerReference.codec) (·.ownerReferences)
     (fun xs x => { x with ownerReferences := xs }),
   .optional "resourceVersion" .text (·.resourceVersion)
     (fun s x => { x with resourceVersion := s }),
   .optional "selfLink" .text (·.selfLink) (fun s x => { x with selfLink := s }),
   .optional "uid" .text (·.uid) (fun s x => { x with uid := s })]

def codec : Codec ObjectMeta := .record .lenient fields {}

/-- The name, or what one was to be made from. -/
def anyName (m : ObjectMeta) : String := m.name.getD (m.generateName.getD "")

end ObjectMeta

structure Condition where
  lastTransitionTime : Timestamp := default
  message : String := ""
  observedGeneration : Option Int := none
  reason : String := ""
  status : String := ""
  type : String := ""
  deriving DecidableEq, Repr

namespace Condition

/-- While a condition is read its time is kept apart, because it must be there in the end. -/
structure Draft where
  time : Option Timestamp := none
  rest : Condition := {}

def timeField : Field Draft :=
  .optional "lastTransitionTime" .timestamp (·.time) (fun t x => { x with time := t })

def fields : List (Field Condition) :=
  [.nullable "" "message" .text (·.message) (fun s x => { x with message := s }),
   .optional "observedGeneration" .int64 (·.observedGeneration)
     (fun n x => { x with observedGeneration := n }),
   .nullable "" "reason" .text (·.reason) (fun s x => { x with reason := s }),
   .nullable "" "status" .text (·.status) (fun s x => { x with status := s }),
   .nullable "" "type" .text (·.type) (fun s x => { x with type := s })]

def decode : Decoder Condition := fun ctx n => do
  let inDraft (f : Field Condition) : Field Draft :=
    { name := f.name, isRequired := f.isRequired
      read := fun ctx n x => return { x with rest := ← f.read ctx n x.rest }
      write := fun x => f.write x.rest }
  let draft ← Record.decode .lenient (timeField :: fields.map inDraft) {} ctx n
  match draft.time with
  | some t => pure { draft.rest with lastTransitionTime := t }
  | none => Decode.fail (.missingField timeField.name)

def encode (x : Condition) : Value :=
  match Record.encode fields x with
  | .object entries => .object ((timeField.name, .text x.lastTransitionTime.text) :: entries)
  | v => v

def codec : Codec Condition := ⟨decode, encode⟩

end Condition
end ClusterPackages
