import Cascade.Main
import Cascade.Scope.Request
import Cascade.Style.Pattern
import Cascade.Proofs.Style.Blame
import Cascade.Proofs.Style.Buckets
import Cascade.Proofs.Style.Variants
import Cascade.Proofs.Style.Keyframes
import Cascade.Proofs.Sheet.Reader
import Cascade.Proofs.Sheet.Printed
import Cascade.Proofs.Sheet.Flattening
import Cascade.Proofs.Sheet.StyleByStyle
import Cascade.Proofs.Scope.History
import Cascade.Proofs.Scope.Inline
import Cascade.Proofs.Scope.Brackets
import Cascade.Proofs.Scope.Alike
import Cascade.Proofs.Scope.Depth
import Cascade.Proofs.Scope.Isolation
import Cascade.Proofs.Number.Base36
import Cascade.Proofs.Number.Numeral
import Cascade.Proofs.Checksum
import Cascade.Proofs.Checksum.Polynomial
import Cascade.Proofs.Scope.Elements
import Cascade.Proofs.Scope.Responses
import Cascade.Proofs.Style.Interchange
import Cascade.Proofs.Style.Rearranged
import Cascade.Proofs.Name.CamelCase
import Cascade.Proofs.Name.Segments
import Cascade.Proofs.Style.Respelled
import Cascade.Proofs.Component.Document
import Cascade.Proofs.Json.Text
import Cascade.Proofs.Json.Written
import Cascade.Proofs.Json.Keys
import Cascade.Proofs.Component.Json
import Cascade.Proofs.Command.File
import Cascade.Proofs.Command.ReadBack
import Cascade.Proofs.Command.Outcome
import Cascade.Proofs.Component.ClassNames
import Cascade.Proofs.Component.Requirements
import Cascade.Proofs.Component.Routes
import Cascade.Proofs.Sheet.Silence
import Cascade.Proofs.Style.Placeholder
