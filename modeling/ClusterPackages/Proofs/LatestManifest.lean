import ClusterPackages.Proofs.DocumentUrls

/-! The latest manifest of a package. An answer is judged by its status first, then by its media type, then by
whether its body came whole, and last by what its body says (`Web.Verdict`). The manifest without a
version is asked for only after the version index was answered with the status 404; whatever else is
wrong with the version index is what is wrong with the manifest (`RepoClient.LatestRun`). -/

namespace ClusterPackages

namespace Web

variable {α : Type} {c : Codec α} {url : String}

/-! ## Media types -/

end Web

namespace RepoClient

open Web

/-! ## The latest manifest -/

end RepoClient
end ClusterPackages
