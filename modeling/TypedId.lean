import TypedId.Identifier.Format
import TypedId.Identifier.Sorted
import TypedId.Main
import TypedId.MarkerAttribute
import TypedId.Proofs.ModuleNames
import TypedId.Proofs.WrittenUnits
import TypedId.Proofs.Encoding
import TypedId.Proofs.Identifiers
import TypedId.Proofs.MarkerDecision
import TypedId.Proofs.Clashes
import TypedId.Proofs.ScannedUnits
import TypedId.Proofs.Containment
import TypedId.Proofs.Lexing
import TypedId.Proofs.PrintedLines
import TypedId.Proofs.UnitHeader
import TypedId.Proofs.SourceOrder
import TypedId.Proofs.Rewriting
import TypedId.Proofs.DiskListing
import TypedId.Proofs.Rediscovery
import TypedId.Proofs.Regeneration
import TypedId.Proofs.FirstOfKey
import TypedId.Proofs.FileModules
import TypedId.Proofs.Discovery
import TypedId.Proofs.Respelling
import TypedId.Proofs.Accounts
import TypedId.Proofs.Prediction
import TypedId.Proofs.InlineModules
import TypedId.Proofs.ReplacedSources
import TypedId.Proofs.StrictMarker
import TypedId.Proofs.ItemOrder
import TypedId.Proofs.FailedWrites
import TypedId.Proofs.WriteFrame
import TypedId.Proofs.UnitKeys
import TypedId.Proofs.SourceKeys
import TypedId.Proofs.MarkedItems
import TypedId.Proofs.IdentifierOrder
import TypedId.Proofs.IdentifierLists
import TypedId.Proofs.QualifiedNames
