import ClusterPackages.Document.Record

/-!
Manifests: how a package is installed and what it depends on.
-/

namespace ClusterPackages

inductive PackageScope
  | cluster
  | namespaced
  deriving DecidableEq, Repr

namespace PackageScope

def name : PackageScope → String
  | .cluster => "Cluster"
  | .namespaced => "Namespaced"

def ofName (s : String) : Except Fault PackageScope :=
  if s = "Cluster" then .ok .cluster
  else if s = "Namespaced" then .ok .namespaced
  else .error (.unknownVariant s)

/-- A tag names a variant that has no content. -/
def ofTag (tag : String) (content : Node) : Except Fault PackageScope := do
  let scope ← ofName tag
  match content with
  | .scalar _ .plain s => if s == "" || Scalar.isNull s then return scope else throw .malformed
  | _ => throw .malformed

/-- A key names a variant whose content is null. -/
def ofEntries (format : Format) (ctx : Context) : List (Node × Node) → Decode PackageScope
  | (k, v) :: rest => do
    if format = .tree ∧ rest ≠ [] then Decode.fail .malformed
    else
      let scope ← ofName (← Decoder.text ctx k)
      match v, rest with
      | .atom .null, [] => pure scope
      | .atom .null, (k, _) :: _ => Decode.fail (Decoder.fault k)
      | v, _ => Decode.fail (Decoder.fault v)
  | [] => Decode.fail .malformed

def decode : Decoder PackageScope := fun ctx n => do
  match ← ctx.resolve n with
  | .atom (.text s) => ofName s
  | .scalar tag style s =>
    match Scalar.variantTag? tag with
    | some t => ofTag t (.scalar none style s)
    | none => ofName s
  | .record tag es =>
    if ctx.format = .yaml then
      match Scalar.variantTag? tag with
      | some t => do
        let _ ← ofName t
        Decode.fail .malformed
      | none => Decode.fail .malformed
    else do ofEntries ctx.format (← ctx.inside) es
  | .list tag ns =>
    match Scalar.variantTag? tag with
    | some t => do
      let _ ← ofName t
      Decode.fail .malformed
    | none => Decode.fail (Decoder.fault (.list tag ns))
  | n => Decode.fail (Decoder.fault n)

def codec : Codec PackageScope := ⟨decode, fun s => .text s.name⟩

end PackageScope

structure PackageReference where
  label : String := ""
  url : String := ""
  deriving DecidableEq, Repr

namespace PackageReference

def fields : List (Field PackageReference) :=
  [.mandatory "label" .text (·.label) (fun s x => { x with label := s }),
   .mandatory "url" .text (·.url) (fun s x => { x with url := s })]

def codec : Codec PackageReference := .record .strict fields {}

end PackageReference

structure HelmRelease where
  repositoryUrl : String := ""
  chartName : String := ""
  chartVersion : String := ""
  values : Option Value := none
  deriving DecidableEq, Repr

namespace HelmRelease

def fields : List (Field HelmRelease) :=
  [.mandatory "repositoryUrl" .text (·.repositoryUrl) (fun s x => { x with repositoryUrl := s }),
   .mandatory "chartName" .text (·.chartName) (fun s x => { x with chartName := s }),
   .mandatory "chartVersion" .text (·.chartVersion) (fun s x => { x with chartVersion := s }),
   .optional "values" .raw (·.values) (fun v x => { x with values := v })]

def codec : Codec HelmRelease := .record .strict fields {}

end HelmRelease

structure PlainManifest where
  url : String := ""
  defaultNamespace : String := ""
  deriving DecidableEq, Repr

namespace PlainManifest

def fields : List (Field PlainManifest) :=
  [.mandatory "url" .text (·.url) (fun s x => { x with url := s }),
   .omitIf (· == "") "defaultNamespace" .text (·.defaultNamespace)
     (fun s x => { x with defaultNamespace := s })]

def codec : Codec PlainManifest := .record .strict fields {}

end PlainManifest

structure Entrypoint where
  name : String := ""
  serviceName : String := ""
  port : Int := 0
  localPort : Option Int := none
  scheme : String := ""
  deriving DecidableEq, Repr

namespace Entrypoint

def fields : List (Field Entrypoint) :=
  [.omitIf (· == "") "name" .text (·.name) (fun s x => { x with name := s }),
   .mandatory "serviceName" .text (·.serviceName) (fun s x => { x with serviceName := s }),
   .mandatory "port" .int32 (·.port) (fun n x => { x with port := n }),
   .optional "localPort" .int32 (·.localPort) (fun n x => { x with localPort := n }),
   .omitIf (· == "") "scheme" .text (·.scheme) (fun s x => { x with scheme := s })]

def codec : Codec Entrypoint := .record .strict fields {}

end Entrypoint

/-- Another package that this one needs; without a constraint any version will do. -/
structure Dependency where
  name : String := ""
  version : String := ""
  deriving DecidableEq, Repr

namespace Dependency

def fields : List (Field Dependency) :=
  [.mandatory "name" .text (·.name) (fun s x => { x with name := s }),
   .omitIf (· == "") "version" .text (·.version) (fun s x => { x with version := s })]

def codec : Codec Dependency := .record .strict fields {}

end Dependency

structure Manifest where
  scope : Option PackageScope := none
  name : String := ""
  shortDescription : String := ""
  longDescription : String := ""
  references : List PackageReference := []
  iconUrl : String := ""
  helm : Option HelmRelease := none
  manifests : List PlainManifest := []
  valueDefinitions : TextMap Value := []
  defaultNamespace : String := ""
  entrypoints : List Entrypoint := []
  dependencies : List Dependency := []
  deriving DecidableEq, Repr

namespace Manifest

def fields : List (Field Manifest) :=
  [.optional "scope" PackageScope.codec (·.scope) (fun s x => { x with scope := s }),
   .mandatory "name" .text (·.name) (fun s x => { x with name := s }),
   .omitIf (· == "") "shortDescription" .text (·.shortDescription)
     (fun s x => { x with shortDescription := s }),
   .omitIf (· == "") "longDescription" .text (·.longDescription)
     (fun s x => { x with longDescription := s }),
   .omitIf List.isEmpty "references" (.list PackageReference.codec) (·.references)
     (fun xs x => { x with references := xs }),
   .omitIf (· == "") "iconUrl" .text (·.iconUrl) (fun s x => { x with iconUrl := s }),
   .optional "helm" HelmRelease.codec (·.helm) (fun h x => { x with helm := h }),
   .omitIf List.isEmpty "manifests" (.list PlainManifest.codec) (·.manifests)
     (fun xs x => { x with manifests := xs }),
   .omitIf List.isEmpty "valueDefinitions" (.map .raw) (·.valueDefinitions)
     (fun m x => { x with valueDefinitions := m }),
   .omitIf (· == "") "defaultNamespace" .text (·.defaultNamespace)
     (fun s x => { x with defaultNamespace := s }),
   .omitIf List.isEmpty "entrypoints" (.list Entrypoint.codec) (·.entrypoints)
     (fun xs x => { x with entrypoints := xs }),
   .omitIf List.isEmpty "dependencies" (.list Dependency.codec) (·.dependencies)
     (fun xs x => { x with dependencies := xs })]

def codec : Codec Manifest := .record .strict fields {}

/-- A package that names no scope belongs to the cluster. -/
def isClusterScoped (m : Manifest) : Bool := m.scope != some .namespaced

def isNamespaced (m : Manifest) : Bool := m.scope == some .namespaced

end Manifest
end ClusterPackages
