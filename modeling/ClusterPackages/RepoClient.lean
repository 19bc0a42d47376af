import ClusterPackages.Duration
import ClusterPackages.Web

/-!
Clients of one repository. It publishes its catalog, the version index of each package, and a
manifest for each version; a package without a version index has one manifest without a version.
A client keeps the catalog it fetched.
-/

namespace ClusterPackages

structure RepoClient where
  baseUrl : String
  auth : Authenticator
  maxCacheAge : Duration
  deriving DecidableEq, Repr

namespace RepoClient

def trimSlashes (cs : List Char) : List Char := (cs.reverse.dropWhile (· == '/')).reverse

def create (url : String) (auth : Authenticator) (maxCacheAge : Duration) :
    Except RepoError RepoClient :=
  match Url.parse url with
  | .error f => .error (.invalidUrl url f.message)
  | .ok u =>
    if u.isWeb then .ok { baseUrl := String.ofList (trimSlashes url.toList), auth, maxCacheAge }
    else .error (.invalidUrl url "URL must start with http:// or https://")

/-! ## Addresses of documents -/

def urlOf (c : RepoClient) (segments : List String) : String :=
  String.ofList (c.baseUrl.toList ++ segments.flatMap fun s => '/' :: Text.percentSegment s.toList)

def catalogUrl (c : RepoClient) : String := c.urlOf ["index.yaml"]

def versionIndexUrl (c : RepoClient) (name : String) : String := c.urlOf [name, "versions.yaml"]

def versionlessManifestUrl (c : RepoClient) (name : String) : String :=
  c.urlOf [name, "package.yaml"]

def manifestUrl (c : RepoClient) (name version : String) : String :=
  c.urlOf [name, version, "package.yaml"]

/-! ## Documents -/

/-- The time that passes within one run is far below any age but zero. -/
def keepsCatalog (c : RepoClient) : Bool := 0 < c.maxCacheAge.nanos

def fresh? (c : RepoClient) (kept : Option Catalog) : Option Catalog :=
  if c.keepsCatalog then kept else none

def fetchCatalog (web : Web) (c : RepoClient) : Call Catalog :=
  web.fetch c.auth Catalog.codec c.catalogUrl

def keep (x : Catalog) : Call Unit := modify fun s => { s with catalog := some x }

def catalog (web : Web) (c : RepoClient) : Call Catalog := do
  match c.fresh? (← get).catalog with
  | some x => pure x
  | none =>
    let x ← c.fetchCatalog web
    keep x
    pure x

def invalidate : Call Unit := modify fun s => { s with catalog := none }

def versionIndex (web : Web) (c : RepoClient) (name : String) : Call VersionIndex :=
  web.fetch c.auth VersionIndex.codec (c.versionIndexUrl name)

def manifest (web : Web) (c : RepoClient) (name version : String) : Call Manifest :=
  web.fetch c.auth Manifest.codec (c.manifestUrl name version)

/-- The latest version with its manifest; the empty version if there is no version index. -/
def latestManifest (web : Web) (c : RepoClient) (name : String) : Call (String × Manifest) := do
  match ← ExceptT.lift (c.versionIndex web name).run with
  | .ok index =>
    let m ← c.manifest web name index.latestVersion
    pure (index.latestVersion, m)
  | .error e =>
    if e.isNotFound then
      let m ← web.fetch c.auth Manifest.codec (c.versionlessManifestUrl name)
      pure ("", m)
    else throw e

/-- The version that the catalog shows, empty if it does not list the package. -/
def latestVersion (web : Web) (c : RepoClient) (name : String) : Call String := do
  let x ← c.catalog web
  pure (((x.get? name).map (·.latestVersion)).getD "")

end RepoClient
end ClusterPackages
