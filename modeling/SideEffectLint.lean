import SideEffectLint.Main
import SideEffectLint.Proofs.Bindings
import SideEffectLint.Proofs.Collect
import SideEffectLint.Proofs.Colours
import SideEffectLint.Proofs.Consistency
import SideEffectLint.Proofs.Declarations
import SideEffectLint.Proofs.Detection
import SideEffectLint.Proofs.Globs
import SideEffectLint.Proofs.Isolation
import SideEffectLint.Proofs.Json.Canonical
import SideEffectLint.Proofs.Json.Decoder
import SideEffectLint.Proofs.Json.Leniency
import SideEffectLint.Proofs.Json.Scalar
import SideEffectLint.Proofs.Json.Value
import SideEffectLint.Proofs.Layout
import SideEffectLint.Proofs.Lines
import SideEffectLint.Proofs.Loading
import SideEffectLint.Proofs.Manifest
import SideEffectLint.Proofs.Outcomes
import SideEffectLint.Proofs.Outline
import SideEffectLint.Proofs.Paths
import SideEffectLint.Proofs.Placement
import SideEffectLint.Proofs.Precedence
import SideEffectLint.Proofs.Pruning
import SideEffectLint.Proofs.Relabeling
import SideEffectLint.Proofs.Relocation
import SideEffectLint.Proofs.Renaming
import SideEffectLint.Proofs.RoundTrip
import SideEffectLint.Proofs.Sighting
import SideEffectLint.Proofs.Tasks
import SideEffectLint.Proofs.TextOrder
import SideEffectLint.Proofs.Untyped
import SideEffectLint.Proofs.Variation
import SideEffectLint.Proofs.Widening
import SideEffectLint.Report.Decoding
