import OverloadTables.Catalog.Decode
import OverloadTables.Tables.Build
import OverloadTables.SemanticType.Projection
import OverloadTables.Text.DecimalDigit
import OverloadTables.Document.Source
import OverloadTables.Document.Json
import OverloadTables.Command.Run
import OverloadTables.Command.Volume
import OverloadTables.Main
import OverloadTables.Proofs.SemanticType.Projection
import OverloadTables.Proofs.Tables.Verdict
import OverloadTables.Proofs.Document.Tables
import OverloadTables.Proofs.Tables.Fingerprint
import OverloadTables.Proofs.Tables.Appended
import OverloadTables.Proofs.Tables.Interleaving
import OverloadTables.Proofs.Tables.Renaming
import OverloadTables.Proofs.Tables.Culprit
import OverloadTables.Proofs.Dispatch.Scan
import OverloadTables.Proofs.Document.Readback
import OverloadTables.Proofs.Script.Matcher
import OverloadTables.Proofs.Dispatch.Exact
import OverloadTables.Proofs.Command.Ends
import OverloadTables.Proofs.Command.Verdict
import OverloadTables.Proofs.Command.Effects
import OverloadTables.Proofs.Dispatch.Enclosing
import OverloadTables.Proofs.Dispatch.Inspected
import OverloadTables.Proofs.Dispatch.Reordered
import OverloadTables.Proofs.AddressSpace
import OverloadTables.Proofs.Catalog.Format
import OverloadTables.Proofs.Catalog.Verdict
import OverloadTables.Proofs.Catalog.Wording
import OverloadTables.Proofs.Catalog.Reworded
import OverloadTables.Proofs.BlockIndex.Listed
import OverloadTables.Proofs.SemanticType.Words
import OverloadTables.Proofs.Signature.LinearScan
import OverloadTables.Proofs.Signature.Rearranged
import OverloadTables.Proofs.SemanticType.Description
import OverloadTables.Proofs.Json.NormalForm
import OverloadTables.Proofs.Command.Lines
import OverloadTables.Proofs.Document.Mentions
import OverloadTables.Proofs.Grouping.Stable
import OverloadTables.Proofs.Document.Literals
