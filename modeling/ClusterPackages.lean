import ClusterPackages.Aggregate
import ClusterPackages.ApiServer
import ClusterPackages.Clientset.Build
import ClusterPackages.Clientset.Concurrent
import ClusterPackages.Document.JsonText
import ClusterPackages.Document.MergePatch
import ClusterPackages.RepoClient.Refresh
import ClusterPackages.Update
import ClusterPackages.Proofs.TextMap
import ClusterPackages.Proofs.Run
import ClusterPackages.Proofs.Await
import ClusterPackages.Proofs.Placement
import ClusterPackages.Proofs.Writes
import ClusterPackages.Proofs.Apply
import ClusterPackages.Proofs.Selection
import ClusterPackages.Proofs.Stepwise
import ClusterPackages.Proofs.Planning
import ClusterPackages.Proofs.Upgrade
import ClusterPackages.Proofs.Coherence
import ClusterPackages.Proofs.CoherentPlan
import ClusterPackages.Proofs.Settled
import ClusterPackages.Proofs.Precedence
import ClusterPackages.Proofs.VersionOrder
import ClusterPackages.Proofs.Session
import ClusterPackages.Proofs.Reachable
import ClusterPackages.Proofs.Asking
import ClusterPackages.Proofs.Transparency
import ClusterPackages.Proofs.Merging
import ClusterPackages.Proofs.Offers
import ClusterPackages.Proofs.Highest
import ClusterPackages.Proofs.Display
import ClusterPackages.Proofs.Provenance
import ClusterPackages.Proofs.Installable
import ClusterPackages.Proofs.Entries
import ClusterPackages.Proofs.Failing
import ClusterPackages.Proofs.Targets
import ClusterPackages.Proofs.ShownVersions
import ClusterPackages.Proofs.Downgrades
import ClusterPackages.Proofs.Recheck
import ClusterPackages.Proofs.Refresh
import ClusterPackages.Proofs.SingleRefresh
import ClusterPackages.Proofs.Forgetting
import ClusterPackages.Proofs.ConcurrentBuilds
import ClusterPackages.Aggregate.AtOnce
import ClusterPackages.Proofs.AnyOrder
import ClusterPackages.Proofs.Secrecy
import ClusterPackages.Proofs.Supply
import ClusterPackages.Proofs.BestCandidate
import ClusterPackages.Proofs.Classified
import ClusterPackages.Proofs.NameSearch
import ClusterPackages.Proofs.Absence
import ClusterPackages.Proofs.Newest
import ClusterPackages.Proofs.Requirements
import ClusterPackages.Proofs.Deletions
import ClusterPackages.Proofs.PartialAnswers
import ClusterPackages.Proofs.Credentials
import ClusterPackages.Proofs.Cutting
import ClusterPackages.Proofs.VersionGrammar
import ClusterPackages.Proofs.VersionSpelling
import ClusterPackages.Proofs.CanonicalText
import ClusterPackages.Proofs.UpgradeDirections
import ClusterPackages.Proofs.ComparatorGrammar
import ClusterPackages.Proofs.ConstraintText
import ClusterPackages.Proofs.Bounds
import ClusterPackages.Proofs.Violations
import ClusterPackages.Proofs.ConstraintLayout
import ClusterPackages.Proofs.PercentText
import ClusterPackages.Proofs.WebAddress
import ClusterPackages.Proofs.BelowBase
import ClusterPackages.Proofs.DocumentUrls
import ClusterPackages.Proofs.DotSegments
import ClusterPackages.Proofs.RequestPaths
import ClusterPackages.Proofs.LatestManifest
import ClusterPackages.Proofs.WithoutRepositories
import ClusterPackages.Proofs.VersionPatch
import ClusterPackages.Proofs.DocumentRoundTrip
import ClusterPackages.Proofs.SettingsFile
