import Warden.Text.Basic
import Warden.Text.Blank
import Warden.Text.Digit
import Warden.Text.Word
import Warden.Text.Printable
import Warden.Text.Lowercase
import Warden.Number.Decimal
import Warden.Number.IntegerText
import Warden.Calendar.Iso
import Warden.Value.Equality
import Warden.Json.Reader
import Warden.Json.Writer
import Warden.Filter.Basic
import Warden.Filter.Truth
import Warden.Access.Allowlist
import Warden.Schema.Definition
import Warden.Filter.Parser
import Warden.Query.Merge
import Warden.Filter.Evaluation
import Warden.Query.Parameters
import Warden.Query.Plan
import Warden.Sql.Quoting
import Warden.Sql.Fragment
import Warden.Sql.Predicate
import Warden.Sql.Condition
import Warden.Sql.Select
import Warden.Sql.Write
import Warden.Sql.Rendering
import Warden.Query.Projection
import Warden.Item.Payload
import Warden.Item.Security
import Warden.Permission.Snapshot
import Warden.Database.Items
import Warden.Database.Tables
import Warden.Item.Reading
import Warden.Item.Writing
import Warden.Service.Items
import Warden.Service.Call
import Warden.Service.Authentication
import Warden.Service.Origins
import Warden.Proofs.Outcome
import Warden.Proofs.Named
import Warden.Proofs.Sample
import Warden.Proofs.Filter.Folding
import Warden.Proofs.Filter.Holding
import Warden.Proofs.Filter.Completion
import Warden.Proofs.Filter.Demand
import Warden.Proofs.Number.IntegerText
import Warden.Proofs.Number.Scaled
import Warden.Proofs.Value.Equality
import Warden.Proofs.Value.Order
import Warden.Proofs.Value.Integer
import Warden.Proofs.Access.Allowlist
import Warden.Proofs.Access.Variable
import Warden.Proofs.Query.Parameters
import Warden.Proofs.Query.Plan
import Warden.Proofs.Query.Security
import Warden.Proofs.Query.Confinement
import Warden.Proofs.Sql.Write
import Warden.Proofs.Sql.Truth
import Warden.Proofs.Sql.Condition
import Warden.Proofs.Filter.Admission
import Warden.Proofs.Database.Dialogue
import Warden.Proofs.Database.Says
import Warden.Proofs.Item.Payload
import Warden.Proofs.Item.ToOne
import Warden.Proofs.Item.Writing
import Warden.Proofs.Item.Statements
import Warden.Proofs.Item.Creation
import Warden.Proofs.Item.Defaults
import Warden.Proofs.Item.Addressing
import Warden.Proofs.Service.Denial
import Warden.Proofs.Item.Atomicity
import Warden.Proofs.Permission.Agreement
import Warden.Proofs.Sql.Rendering
import Warden.Proofs.Item.Placeholder
import Warden.Proofs.Query.Structure
import Warden.Proofs.Filter.Normal
import Warden.Proofs.Filter.Reading
import Warden.Proofs.Filter.RoundTrip
import Warden.Proofs.Query.Validity
import Warden.Proofs.Permission.Change
import Warden.Proofs.Permission.Loading
import Warden.Proofs.Permission.Reloading
import Warden.Proofs.Permission.Freshness
import Warden.Proofs.Database.Outage
import Warden.Proofs.Permission.Outage
import Warden.Proofs.Text.Path
import Warden.Proofs.Access.Pattern
import Warden.Proofs.Query.Expansion
import Warden.Proofs.Query.Projection
import Warden.Proofs.Schema.JoinKeys
import Warden.Proofs.Sql.Joins
import Warden.Proofs.Query.Rendering
import Warden.Proofs.Query.Lookups
import Warden.Proofs.Query.Deletion
import Warden.Proofs.Filter.Pruning
import Warden.Proofs.Query.Depth
import Warden.Proofs.Sql.Renaming
import Warden.Proofs.Sql.Renumbering
import Warden.Proofs.Query.Counting
import Warden.Proofs.Query.Encoding
import Warden.Proofs.Schema.Reach
import Warden.Proofs.Filter.Nesting
import Warden.Proofs.Item.Allowance
import Warden.Proofs.Database.Answering
import Warden.Proofs.Item.Storing
import Warden.Proofs.Item.Nested
import Warden.Proofs.Item.Columns
import Warden.Proofs.Access.Language
import Warden.Proofs.Filter.Meaning
import Warden.Proofs.Query.Stripping
import Warden.Proofs.Sql.Like
import Warden.Proofs.Sql.Wildcards
import Warden.Proofs.Sql.Cast
import Warden.Proofs.Filter.Sides
import Warden.Proofs.Filter.Containment
import Warden.Proofs.Filter.Answer
import Warden.Proofs.Filter.Arrays
import Warden.Proofs.Query.Columns
import Warden.Proofs.Query.Labels
import Warden.Proofs.Access.Token
import Warden.Proofs.Access.Resolution
import Warden.Proofs.Json.Reading
import Warden.Proofs.Query.Malformed
import Warden.Proofs.Sql.Scoping
import Warden.Proofs.Query.Scopes
import Warden.Proofs.Query.Numbering
import Warden.Proofs.Query.Aliases
import Warden.Proofs.Query.Outline
import Warden.Proofs.Schema.Definition
import Warden.Proofs.Permission.Acceptance
import Warden.Proofs.Service.Roles
import Warden.Proofs.Access.Replacement
