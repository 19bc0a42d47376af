import ClusterPackages.Resource.Object

/-!
Packages installed in a cluster, for the whole of it or for one namespace: which version is
wanted, which one is there, and when two objects are the same.
-/

namespace ClusterPackages

structure PackageInfo where
  name : String := ""
  version : String := ""
  /-- Empty for the default repository. -/
  repositoryName : String := ""
  deriving DecidableEq, Repr

namespace PackageInfo

def fields : List (Field PackageInfo) :=
  [.mandatory "name" .text (·.name) (fun s x => { x with name := s }),
   .always "version" .text (·.version) (fun s x => { x with version := s }),
   .omitIf (· == "") "repositoryName" .text (·.repositoryName)
     (fun s x => { x with repositoryName := s })]

def codec : Codec PackageInfo := .record .strict fields {}

end PackageInfo

structure PackageSpec where
  packageInfo : PackageInfo := {}
  values : TextMap Value := []
  suspend : Bool := false
  deriving DecidableEq, Repr

namespace PackageSpec

def fields : List (Field PackageSpec) :=
  [.mandatory "packageInfo" PackageInfo.codec (·.packageInfo)
     (fun i x => { x with packageInfo := i }),
   .omitIf List.isEmpty "values" (.map .raw) (·.values) (fun m x => { x with values := m }),
   .always "suspend" .bool (·.suspend) (fun b x => { x with suspend := b })]

def codec : Codec PackageSpec := .record .strict fields {}

end PackageSpec

structure PackageStatus where
  /-- Empty before anything was installed. -/
  version : String := ""
  conditions : List Condition := []
  deriving DecidableEq, Repr

namespace PackageStatus

def fields : List (Field PackageStatus) :=
  [.omitIf (· == "") "version" .text (·.version) (fun s x => { x with version := s }),
   .omitIf List.isEmpty "conditions" (.list Condition.codec) (·.conditions)
     (fun xs x => { x with conditions := xs })]

def codec : Codec PackageStatus := .record .strict fields {}

def condition? (s : PackageStatus) (type : String) : Option Condition :=
  s.conditions.find? (·.type == type)

end PackageStatus

inductive PackageKind
  | clusterPackage
  | package
  deriving DecidableEq, Repr, Inhabited

def PackageKind.text : PackageKind → String
  | .clusterPackage => "ClusterPackage"
  | .package => "Package"

structure InstalledPackage where
  kind : PackageKind
  metadata : ObjectMeta := {}
  spec : PackageSpec := {}
  status : Option PackageStatus := none
  deriving DecidableEq, Repr

namespace InstalledPackage

def objectCodec (kind : PackageKind) : Codec (ResourceObject PackageSpec PackageStatus) :=
  ResourceObject.codec kind.text PackageSpec.codec PackageStatus.codec {}

def codec (kind : PackageKind) : Codec InstalledPackage where
  decode ctx n := do
    let x ← (objectCodec kind).decode ctx n
    pure { kind, metadata := x.metadata, spec := x.spec, status := x.status }
  encode p :=
    (objectCodec p.kind).encode { metadata := p.metadata, spec := p.spec, status := p.status }

def encode (p : InstalledPackage) : Value := (codec p.kind).encode p

def name (p : InstalledPackage) : String := p.metadata.anyName

/-- An object for the whole cluster is in no namespace, whatever its metadata say. -/
def namespace? (p : InstalledPackage) : Option String :=
  match p.kind with
  | .clusterPackage => none
  | .package => p.metadata.namespace

def uid? (p : InstalledPackage) : Option String := p.metadata.uid

def packageName (p : InstalledPackage) : String := p.spec.packageInfo.name

def repositoryName (p : InstalledPackage) : String := p.spec.packageInfo.repositoryName

def desiredVersion (p : InstalledPackage) : String := p.spec.packageInfo.version

def setPackageInfo (p : InstalledPackage) (i : PackageInfo) : InstalledPackage :=
  { p with spec := { p.spec with packageInfo := i } }

def setDesiredVersion (p : InstalledPackage) (version : String) : InstalledPackage :=
  p.setPackageInfo { p.spec.packageInfo with version }

/-- What is installed is what is wanted. -/
def isConverged (p : InstalledPackage) : Bool :=
  p.status.any fun s => s.version != "" && s.version == p.desiredVersion

def readyType : String := "Ready"

def readyCondition? (p : InstalledPackage) : Option Condition := do
  (← p.status).condition? readyType

/-- One object at two times; identities count where both are known. -/
def isSameObject (p q : InstalledPackage) : Bool :=
  p.kind == q.kind && p.name == q.name && p.namespace? == q.namespace? &&
    match p.uid?, q.uid? with
    | some a, some b => a == b
    | _, _ => true

def text (p : InstalledPackage) : String :=
  match p.namespace? with
  | some ns => p.kind.text ++ "/" ++ ns ++ "/" ++ p.name
  | none => p.kind.text ++ "/" ++ p.name

end InstalledPackage
end ClusterPackages
