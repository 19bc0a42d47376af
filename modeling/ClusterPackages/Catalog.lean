import ClusterPackages.Manifest

/-!
Catalogs: the packages that a repository offers, the versions of one package, and the catalog that
results from merging those of several repositories.
-/

namespace ClusterPackages

structure VersionEntry where
  version : String := ""
  deriving DecidableEq, Repr

namespace VersionEntry

def fields : List (Field VersionEntry) :=
  [.mandatory "version" .text (·.version) (fun s x => { x with version := s })]

def codec : Codec VersionEntry := .record .strict fields {}

end VersionEntry

structure VersionIndex where
  versions : List VersionEntry := []
  latestVersion : String := ""
  deriving DecidableEq, Repr

namespace VersionIndex

def fields : List (Field VersionIndex) :=
  [.always "versions" (.list VersionEntry.codec) (·.versions)
     (fun xs x => { x with versions := xs }),
   .always "latestVersion" .text (·.latestVersion) (fun s x => { x with latestVersion := s })]

def codec : Codec VersionIndex := .record .strict fields {}

def contains (i : VersionIndex) (version : String) : Bool :=
  i.versions.any (·.version == version)

end VersionIndex

structure CatalogEntry where
  name : String := ""
  shortDescription : String := ""
  iconUrl : String := ""
  latestVersion : String := ""
  scope : Option PackageScope := none
  deriving DecidableEq, Repr

namespace CatalogEntry

def fields : List (Field CatalogEntry) :=
  [.mandatory "name" .text (·.name) (fun s x => { x with name := s }),
   .omitIf (· == "") "shortDescription" .text (·.shortDescription)
     (fun s x => { x with shortDescription := s }),
   .omitIf (· == "") "iconUrl" .text (·.iconUrl) (fun s x => { x with iconUrl := s }),
   .omitIf (· == "") "latestVersion" .text (·.latestVersion)
     (fun s x => { x with latestVersion := s }),
   .optional "scope" PackageScope.codec (·.scope) (fun s x => { x with scope := s })]

def codec : Codec CatalogEntry := .record .strict fields {}

end CatalogEntry

structure Catalog where
  packages : List CatalogEntry := []
  deriving DecidableEq, Repr

namespace Catalog

def fields : List (Field Catalog) :=
  [.always "packages" (.list CatalogEntry.codec) (·.packages) (fun xs x => { x with packages := xs })]

def codec : Codec Catalog := .record .strict fields {}

/-- The first entry of a name. -/
def get? (c : Catalog) (name : String) : Option CatalogEntry :=
  c.packages.find? (·.name == name)

end Catalog

structure MergedEntry where
  entry : CatalogEntry := {}
  repos : List String := []
  deriving DecidableEq, Repr

namespace MergedEntry

/-- The entry's own fields and the repositories stand side by side. -/
structure Sides where
  repos : List String := []
  /-- Entries for the other side, in reverse, with typed leaves. -/
  others : List (Node × Node) := []

def reposField : Field MergedEntry :=
  .omitIf List.isEmpty "repos" (.list .text) (·.repos) (fun xs x => { x with repos := xs })

/-- Sets apart what belongs to the entry itself. Its leaves are typed before it is known which
fields they are for. -/
def readSides (ctx : Context) : (seen : Bool) → Sides → List (Node × Node) → Decode Sides
  | _, s, [] => pure s
  | seen, s, (k, v) :: rest => do
    let key ← Decoder.text ctx k
    if key = reposField.name then
      if seen then Decode.fail (.duplicateField key)
      else
        let repos ← Decoder.list Decoder.text ctx v
        readSides ctx true { s with repos } rest
    else
      let v ← Decoder.settle ctx v
      readSides ctx seen { s with others := (.text key, v) :: s.others } rest

def fromEntries (ctx : Context) (entries : List (Node × Node)) : Decode MergedEntry := do
  let s ← readSides ctx false {} entries
  let tree : Context := { format := .tree, anchors := [], jumpLimit := 0, depth := none }
  let entry ← Record.fromEntries .strict CatalogEntry.fields {} tree s.others.reverse
  return { entry, repos := s.repos }

def decode : Decoder MergedEntry := fun ctx n => do
  match ← ctx.resolve n with
  | .record _ es => do fromEntries (← ctx.inside) es
  | n =>
    if Decoder.isEmptyLeaf n then fromEntries ctx [] else Decode.fail (Decoder.fault n)

def encode (x : MergedEntry) : Value :=
  match Record.encode CatalogEntry.fields x.entry, Record.encode [reposField] x with
  | .object es, .object rs => .object (es ++ rs)
  | v, _ => v

def codec : Codec MergedEntry := ⟨decode, encode⟩

end MergedEntry

/-- The catalogs of all repositories in one, sorted by package name. -/
structure MergedCatalog where
  packages : List MergedEntry := []
  deriving DecidableEq, Repr

namespace MergedCatalog

def fields : List (Field MergedCatalog) :=
  [.mandatory "packages" (.list MergedEntry.codec) (·.packages)
     (fun xs x => { x with packages := xs })]

def codec : Codec MergedCatalog := .record .strict fields {}

/-- Halves the part of a sorted list in which a key must be, down to one element. -/
def search (goesLeft : α → Bool) (xs : Array α) (base size : Nat) : Nat :=
  if 1 < size then
    let half := size / 2
    let middle := base + half
    let base := if (xs[middle]?).any goesLeft then base else middle
    search goesLeft xs base (size - half)
  else base
termination_by size

def get? (c : MergedCatalog) (name : String) : Option MergedEntry :=
  let xs := c.packages.toArray
  match xs[search (fun e => name < e.entry.name) xs 0 xs.size]? with
  | some e => if e.entry.name = name then some e else none
  | none => none

end MergedCatalog
end ClusterPackages
