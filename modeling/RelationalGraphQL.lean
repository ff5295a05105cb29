import RelationalGraphQL.Config.Json
import RelationalGraphQL.Mapping.Json
import RelationalGraphQL.Proofs.Config.Validity
import RelationalGraphQL.Proofs.Document.Literal
import RelationalGraphQL.Proofs.Execution.Independence
import RelationalGraphQL.Proofs.Execution.Isolation
import RelationalGraphQL.Proofs.Execution.Shape
import RelationalGraphQL.Proofs.Loader.LoadMany
import RelationalGraphQL.Proofs.Mapping.Capture
import RelationalGraphQL.Proofs.Mapping.Noninterference
import RelationalGraphQL.Proofs.Mapping.Parents
import RelationalGraphQL.Proofs.Mapping.Quoting
import RelationalGraphQL.Proofs.Mapping.ReadBack
import RelationalGraphQL.Proofs.Mapping.Refusal
import RelationalGraphQL.Proofs.Mapping.Writing
import RelationalGraphQL.Proofs.Response.Envelope
import RelationalGraphQL.Proofs.Scalar
import RelationalGraphQL.Proofs.Schema.Introspection
import RelationalGraphQL.Proofs.Selection.Inlining
import RelationalGraphQL.Proofs.Selection.Repetition
import RelationalGraphQL.Proofs.Selection.Termination
import RelationalGraphQL.Proofs.Sql.BoundValue
import RelationalGraphQL.Schema.Json
import RelationalGraphQL.Schema.Summary
import RelationalGraphQL.Selection.Json
import RelationalGraphQL.Text.Capital
import RelationalGraphQL.Proofs.Sql.Unquoting
