import ClusterPackages.Resource.Meta

/-!
The written form shared by the objects of this library's own kinds: metadata, a specification and
perhaps a status. Kind and version of the form are written, and not looked at when read.
-/

namespace ClusterPackages

structure ResourceObject (spec status : Type) where
  metadata : ObjectMeta := {}
  spec : spec
  status : Option status := none
  deriving DecidableEq, Repr

namespace ResourceObject

def groupVersion : String := "packages.skiff.io/v1alpha1"

def fields (spec : Codec α) (status : Codec β) : List (Field (ResourceObject α β)) :=
  [.mandatory "metadata" ObjectMeta.codec (·.metadata) (fun m x => { x with metadata := m }),
   .mandatory "spec" spec (·.spec) (fun s x => { x with spec := s }),
   .optional "status" status (·.status) (fun s x => { x with status := s })]

/-- Objects of one kind; reading starts from an empty specification. -/
def codec (kind : String) (spec : Codec α) (status : Codec β) (first : α) :
    Codec (ResourceObject α β) where
  decode := Record.decode .strict (fields spec status) { spec := first }
  encode x :=
    match Record.encode (fields spec status) x with
    | .object entries =>
      .object (("apiVersion", .text groupVersion) :: ("kind", .text kind) :: entries)
    | v => v

end ResourceObject
end ClusterPackages
