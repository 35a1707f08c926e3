import Conform.Value.Entries
import Conform.Json.Descriptor
import Conform.Schema.Builder
import Conform.Schema.StructuralText
import Conform.Validation.Session
import Conform.Proofs.Meaning
import Conform.Proofs.Stability
import Conform.Proofs.Descent
import Conform.Proofs.DepthLimit
import Conform.Proofs.SharedKeys
import Conform.Proofs.Takeover
import Conform.Proofs.JsonValues
import Conform.Proofs.Loading
import Conform.Proofs.JsonOutcome
import Conform.Proofs.Describing
import Conform.Proofs.FieldForms
import Conform.Proofs.Relating
import Conform.Proofs.Sessions
import Conform.Proofs.Spellings
import Conform.Proofs.Depths
import Conform.Proofs.Rounding
import Conform.Proofs.IntegerLimits
import Conform.Proofs.FirstOccurrences
import Conform.Proofs.Previews
import Conform.Proofs.Literals
import Conform.Proofs.Undeclared
import Conform.Proofs.TypeReading
import Conform.Proofs.ShownLengths
import Conform.Proofs.LastRules
import Conform.Proofs.Elements
import Conform.Proofs.LeavingOut
import Conform.Proofs.Reordering
import Conform.Proofs.AddedRules
import Conform.Proofs.Flattening
import Conform.Proofs.SingleSelection
import Conform.Proofs.NumberLimits
