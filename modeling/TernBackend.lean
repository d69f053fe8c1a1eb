import TernBackend.Session.Environment
import TernBackend.Metadata.Unit
import TernBackend.Container.Content
import TernBackend.Package.Module
import TernBackend.Image.Registry
import TernBackend.Flight.Schedule
import TernBackend.Proofs.Flight.WaitGraph
import TernBackend.Proofs.Flight.Move
import TernBackend.Proofs.Flight.Consistency
import TernBackend.Proofs.Flight.Schedule
import TernBackend.Proofs.Flight.Deadlock
import TernBackend.Proofs.Flight.Ring
import TernBackend.Proofs.Flight.SingleFlight
import TernBackend.Proofs.Flight.WaitTable
import TernBackend.Proofs.Flight.Family
import TernBackend.Proofs.Flight.Outcomes
import TernBackend.Proofs.Table
import TernBackend.Proofs.Wire.Base64
import TernBackend.Proofs.Wire.Field
import TernBackend.Proofs.Container.RoundTrip
import TernBackend.Proofs.Container.Extension
import TernBackend.Proofs.Container.Layout
import TernBackend.Proofs.Container.Canonical
import TernBackend.Proofs.Container.Tiling
import TernBackend.Proofs.Package.Module
import TernBackend.Proofs.Package.TableOfContents
import TernBackend.Proofs.Metadata.WellFormed
import TernBackend.Proofs.Metadata.Emission
import TernBackend.Proofs.Metadata.TypeNodes
import TernBackend.Proofs.Image.Materialization
import TernBackend.Proofs.Image.Sharing
import TernBackend.Proofs.Image.Absence
import TernBackend.Proofs.Source.DebugPosition
import TernBackend.Proofs.Source.OutputPath
import TernBackend.Proofs.Target.Triple
import TernBackend.Proofs.Session.Environment
