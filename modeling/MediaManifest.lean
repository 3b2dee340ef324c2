import MediaManifest.Element.Edit
import MediaManifest.Filter.Predicate
import MediaManifest.Main
import MediaManifest.Proofs.Codec.Assignment
import MediaManifest.Proofs.Codec.Decodable
import MediaManifest.Proofs.Codec.Decoding
import MediaManifest.Proofs.Codec.Entries
import MediaManifest.Proofs.Codec.NormalForm
import MediaManifest.Proofs.Codec.RoundTrip
import MediaManifest.Proofs.CommandLine.ExitCodes
import MediaManifest.Proofs.Filter.Grammar
import MediaManifest.Proofs.Filter.NormalForm
import MediaManifest.Proofs.Flavor.Application
import MediaManifest.Proofs.Flavor.Grammar
import MediaManifest.Proofs.Identifier.Holders
import MediaManifest.Proofs.Operations.Filtering
import MediaManifest.Proofs.Package.Accounting
import MediaManifest.Proofs.Package.Anticipation
import MediaManifest.Proofs.Package.Editing
import MediaManifest.Proofs.Package.Filling
import MediaManifest.Proofs.Package.Memory
import MediaManifest.Proofs.Package.Overlap
import MediaManifest.Proofs.Package.Refinement
import MediaManifest.Proofs.Package.Regrouping
import MediaManifest.Proofs.Package.Renaming
import MediaManifest.Proofs.Package.Reporting
import MediaManifest.Proofs.Package.Updating
import MediaManifest.Proofs.Settings.RoundTrip
import MediaManifest.Proofs.Workspace.Freshness
import MediaManifest.Workspace
