import PropValidators.Main
import PropValidators.Command.Outcome
import PropValidators.Proofs.Number.Binary64
import PropValidators.Proofs.Json.NumberLiteral
import PropValidators.Proofs.Json.RoundTrip
import PropValidators.Proofs.Document.Members
import PropValidators.Proofs.Document.Validator
import PropValidators.Proofs.Artifact.RoundTrip
import PropValidators.Proofs.Command.Strictness
import PropValidators.Proofs.Conversion.Accounting
import PropValidators.Proofs.Conversion.Grammar
import PropValidators.Proofs.Command.Containment
import PropValidators.Proofs.Json.Plain
import PropValidators.Proofs.File.Writing
import PropValidators.Proofs.Command.Settings
import PropValidators.Proofs.Document.TypeExpr
import PropValidators.Proofs.Conversion.Domain
import PropValidators.Proofs.File.Extension
import PropValidators.Proofs.Command.Session
import PropValidators.Proofs.Json.Standard
import PropValidators.Proofs.Artifact.Standard
import PropValidators.Proofs.Document.Place
import PropValidators.Proofs.Document.Edit
import PropValidators.Proofs.Conversion.Comparison
import PropValidators.Proofs.Conversion.Setting
import PropValidators.Proofs.Reference
import PropValidators.Proofs.Conversion.ImportName
import PropValidators.Proofs.Conversion.Recognition
import PropValidators.Proofs.Conversion.Flags
import PropValidators.Proofs.Conversion.Replacement
import PropValidators.Proofs.Conversion.Lookups
import PropValidators.Proofs.Conversion.Change
import PropValidators.Proofs.Conversion.Order
import PropValidators.Proofs.Conversion.Unseen
import PropValidators.Proofs.Conversion.Parentheses
import PropValidators.Proofs.Conversion.Effects
import PropValidators.Proofs.File.Path
import PropValidators.Proofs.File.Making
import PropValidators.Proofs.File.Atomicity
import PropValidators.Proofs.Command.Atomicity
import PropValidators.Proofs.Command.Rerun
import PropValidators.Proofs.Config.Fields
import PropValidators.Proofs.Config.Failure
import PropValidators.Proofs.Artifact.Stages
import PropValidators.Proofs.Artifact.Text
import PropValidators.Proofs.Artifact.Nesting
import PropValidators.Proofs.EntityName
import PropValidators.Proofs.Document.Accepted
import PropValidators.Proofs.Document.Faults
import PropValidators.Proofs.Document.Composition
import PropValidators.Proofs.Conversion.Selection
import PropValidators.Proofs.Command.Selection
