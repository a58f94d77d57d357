import AccessFilter.Cli.Arguments
import AccessFilter.Cli.Report
import AccessFilter.Cli.Run
import AccessFilter.Decimal.Binary64
import AccessFilter.Decimal.Power
import AccessFilter.Decimal.Shortest
import AccessFilter.Files.LoadError
import AccessFilter.Files.Tree
import AccessFilter.Filter.Compile
import AccessFilter.Json.Number
import AccessFilter.Json.Reader
import AccessFilter.Json.Shape
import AccessFilter.Json.Writer
import AccessFilter.Main
import AccessFilter.Operator.Basic
import AccessFilter.Operator.Registry
import AccessFilter.Policy.Document
import AccessFilter.Policy.Folder
import AccessFilter.Policy.Set
import AccessFilter.Proofs.Cli.Report
import AccessFilter.Proofs.Cli.Text
import AccessFilter.Proofs.Decimal.Nearest
import AccessFilter.Proofs.Decimal.Rounding
import AccessFilter.Proofs.Decimal.Shortest
import AccessFilter.Proofs.Decimal.Written
import AccessFilter.Proofs.Files.Distinct
import AccessFilter.Proofs.Filter.Access
import AccessFilter.Proofs.Filter.Clause
import AccessFilter.Proofs.Filter.Expansion
import AccessFilter.Proofs.Filter.Extension
import AccessFilter.Proofs.Filter.Fault
import AccessFilter.Proofs.Filter.Form
import AccessFilter.Proofs.Filter.Order
import AccessFilter.Proofs.Filter.Relevance
import AccessFilter.Proofs.Filter.Shape
import AccessFilter.Proofs.Filter.Warning
import AccessFilter.Proofs.Filter.Widening
import AccessFilter.Proofs.Json.Digits
import AccessFilter.Proofs.Json.Inline
import AccessFilter.Proofs.Json.Number
import AccessFilter.Proofs.Json.Text
import AccessFilter.Proofs.Json.Value
import AccessFilter.Proofs.Operator.Builtin
import AccessFilter.Proofs.Operator.Contents
import AccessFilter.Proofs.Operator.History
import AccessFilter.Proofs.Operator.Membership
import AccessFilter.Proofs.Policy.Arrangement
import AccessFilter.Proofs.Policy.Candidate
import AccessFilter.Proofs.Policy.Consistent
import AccessFilter.Proofs.Policy.Documents
import AccessFilter.Proofs.Policy.Duplicate
import AccessFilter.Proofs.Policy.FirstLoad
import AccessFilter.Proofs.Policy.History
import AccessFilter.Proofs.Policy.Kept
import AccessFilter.Proofs.Policy.Listing
import AccessFilter.Proofs.Policy.Reload
import AccessFilter.Proofs.Policy.RoundTrip
import AccessFilter.Proofs.Policy.Search
import AccessFilter.Proofs.Policy.Visit
import AccessFilter.Proofs.Rule.RoundTrip
import AccessFilter.Proofs.Settings.Profile
import AccessFilter.Proofs.Sql.Algebra
import AccessFilter.Proofs.Sql.Binding
import AccessFilter.Proofs.Sql.Blank
import AccessFilter.Proofs.Sql.Columns
import AccessFilter.Proofs.Sql.Comparison
import AccessFilter.Proofs.Sql.Container
import AccessFilter.Proofs.Sql.Group
import AccessFilter.Proofs.Sql.Identifier
import AccessFilter.Proofs.Sql.Information
import AccessFilter.Proofs.Sql.Normal
import AccessFilter.Proofs.Sql.Numbering
import AccessFilter.Proofs.Sql.Parentheses
import AccessFilter.Proofs.Sql.Reading
import AccessFilter.Proofs.Sql.Rendered
import AccessFilter.Proofs.Sql.Token
import AccessFilter.Proofs.Text.Uppercase
import AccessFilter.Proofs.Traversal
import AccessFilter.Proofs.Value.Fields
import AccessFilter.Proofs.Value.Number
import AccessFilter.Proofs.Value.Same
import AccessFilter.Proofs.Yaml.Decode
import AccessFilter.Proofs.Yaml.Double
import AccessFilter.Proofs.Yaml.Layout.Mark
import AccessFilter.Proofs.Yaml.Layout.Scalar
import AccessFilter.Proofs.Yaml.Layout.State
import AccessFilter.Proofs.Yaml.Layout.Value
import AccessFilter.Proofs.Yaml.Meaning
import AccessFilter.Proofs.Yaml.Node
import AccessFilter.Proofs.Yaml.Numeral
import AccessFilter.Proofs.Yaml.Position
import AccessFilter.Proofs.Yaml.Scalar.Literal
import AccessFilter.Proofs.Yaml.Scalar.Plain
import AccessFilter.Proofs.Yaml.Scalar.Quoted
import AccessFilter.Proofs.Yaml.Scalar.Single
import AccessFilter.Proofs.Yaml.Text
import AccessFilter.Proofs.Yaml.Tokens
import AccessFilter.Rule.Basic
import AccessFilter.Rule.OfNode
import AccessFilter.Rule.Read
import AccessFilter.Settings.Dotenv
import AccessFilter.Settings.Environment
import AccessFilter.Sql.Column
import AccessFilter.Sql.Evaluate
import AccessFilter.Sql.Fragment
import AccessFilter.Sql.Predicate
import AccessFilter.Sql.Table
import AccessFilter.Sql.TableFile
import AccessFilter.Text.Inspect
import AccessFilter.Text.Letters
import AccessFilter.Text.Lowercase
import AccessFilter.Text.Printable
import AccessFilter.Text.Uppercase
import AccessFilter.Value.Basic
import AccessFilter.Value.Compare
import AccessFilter.Value.Number
import AccessFilter.Yaml.Character
import AccessFilter.Yaml.Decode
import AccessFilter.Yaml.Node
import AccessFilter.Yaml.Node.Grammar
import AccessFilter.Yaml.Scalar.Block
import AccessFilter.Yaml.Scalar.Gap
import AccessFilter.Yaml.Scalar.Meaning
import AccessFilter.Yaml.Scalar.Plain
import AccessFilter.Yaml.Scalar.Quoted
import AccessFilter.Yaml.Scalar.Written
import AccessFilter.Yaml.Tag
import AccessFilter.Yaml.Token
import AccessFilter.Yaml.Token.Layout
import AccessFilter.Yaml.Token.Property
import AccessFilter.Yaml.Writer
