import RunTrace.Format.Load
import RunTrace.Format.Writer
import RunTrace.Walk
import RunTrace.Audit
import RunTrace.Session
import RunTrace.Outline
import RunTrace.TypeScript
import RunTrace.Viewer.Demo
import RunTrace.Viewer.DemoTrajectory
import RunTrace.Inspection.Basic
import RunTrace.Main
import RunTrace.Proofs.Visibility
import RunTrace.Proofs.ExpandAll
import RunTrace.Proofs.Validity
import RunTrace.Proofs.Format.RoundTrip
import RunTrace.Proofs.ExpansionSets
import RunTrace.Proofs.Comparison
import RunTrace.Proofs.ViewerRuns
import RunTrace.Proofs.Controls
import RunTrace.Proofs.Sessions
import RunTrace.Proofs.Inspections
import RunTrace.Proofs.Page.Clicks
import RunTrace.Proofs.Format.NestingLimit
import RunTrace.Proofs.Locality
import RunTrace.Proofs.Page.Texts
import RunTrace.Proofs.TypeScript.Documents
import RunTrace.Proofs.FlagsRead
import RunTrace.Proofs.Bounds
import RunTrace.Proofs.HiddenSubcalls
import RunTrace.Proofs.FirstFault
import RunTrace.Proofs.PreOrder
import RunTrace.Proofs.RowConsistency
import RunTrace.Proofs.OutlineLines
import RunTrace.Proofs.OutlineBlocks
import RunTrace.Proofs.AuditTotals
import RunTrace.Proofs.Format.Variations
import RunTrace.Proofs.Format.Positional
import RunTrace.Proofs.Format.Truncation
import RunTrace.Proofs.DepthCounters
import RunTrace.Proofs.AcceptedSettings
import RunTrace.Proofs.CollectedIds
import RunTrace.Proofs.GroupedDigits
import RunTrace.Proofs.Durations
