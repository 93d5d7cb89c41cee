import Scaffold.Artifact
import Scaffold.Blocks
import Scaffold.Column
import Scaffold.CommandLine
import Scaffold.CommandLine.Arguments
import Scaffold.CommandLine.Switch
import Scaffold.CommandLine.Usage
import Scaffold.CommandLine.Word
import Scaffold.Config
import Scaffold.Config.Draft
import Scaffold.Config.Load
import Scaffold.Decimal.Fixed
import Scaffold.Decimal.Shortest
import Scaffold.Digest
import Scaffold.Fault
import Scaffold.Generator
import Scaffold.Layout
import Scaffold.Main
import Scaffold.Name.Plural
import Scaffold.Name.Style
import Scaffold.Name.Variants
import Scaffold.Name.Words
import Scaffold.Options
import Scaffold.Path
import Scaffold.Php.Literal
import Scaffold.Proofs.Name.Letters
import Scaffold.Proofs.Route.Grammar
import Scaffold.Proofs.Route.Insert
import Scaffold.Proofs.Route.Layout
import Scaffold.Proofs.Route.Reread
import Scaffold.Proofs.Route.Sequence
import Scaffold.Proofs.Run.Accounted
import Scaffold.Proofs.Run.Again
import Scaffold.Proofs.Run.Alike
import Scaffold.Proofs.Run.Block
import Scaffold.Proofs.Run.Confined
import Scaffold.Proofs.Run.Effect
import Scaffold.Proofs.Run.Finished
import Scaffold.Proofs.Run.Frame
import Scaffold.Proofs.Run.Isolated
import Scaffold.Proofs.Run.Lookup
import Scaffold.Proofs.Run.Outcome
import Scaffold.Proofs.Run.Pipeline
import Scaffold.Proofs.Run.Request
import Scaffold.Proofs.Run.Refused
import Scaffold.Proofs.Run.Rerun
import Scaffold.Proofs.Run.Split
import Scaffold.Proofs.Run.Storage
import Scaffold.Proofs.Run.Supported
import Scaffold.Proofs.Template.Fill
import Scaffold.Proofs.Template.Pieces
import Scaffold.Proofs.Text.ReadBack
import Scaffold.Proofs.Tree.Frame
import Scaffold.Proofs.Tree.Read
import Scaffold.Proofs.Tree.Replace
import Scaffold.Proofs.Tree.Walk
import Scaffold.Proofs.Wp
import Scaffold.Report
import Scaffold.Review
import Scaffold.Review.Request
import Scaffold.Route.Document
import Scaffold.Route.Group
import Scaffold.Route.Merge
import Scaffold.Schema
import Scaffold.Schema.Address
import Scaffold.Schema.Introspect
import Scaffold.Schema.Sqlite
import Scaffold.Shape
import Scaffold.Shape.Record
import Scaffold.Stubs
import Scaffold.Stubs.Api
import Scaffold.Stubs.Common
import Scaffold.Stubs.Routes
import Scaffold.Stubs.Web
import Scaffold.Template
import Scaffold.Template.Renderer
import Scaffold.Text.Blank
import Scaffold.Text.Digit
import Scaffold.Text.Display
import Scaffold.Text.Integer
import Scaffold.Text.Lines
import Scaffold.Text.Lower
import Scaffold.Text.Numeral
import Scaffold.Text.Percent
import Scaffold.Text.Printable
import Scaffold.Text.Search
import Scaffold.Tree
import Scaffold.Tree.Access
import Scaffold.Tree.Edit
import Scaffold.Value
import Scaffold.Workspace
import Scaffold.Writer
import Scaffold.Yaml
import Scaffold.Yaml.Binary
import Scaffold.Yaml.Block
import Scaffold.Yaml.Cursor
import Scaffold.Yaml.Datum
import Scaffold.Yaml.Merge
import Scaffold.Yaml.Node
import Scaffold.Yaml.Number
import Scaffold.Yaml.Plain
import Scaffold.Yaml.Property
import Scaffold.Yaml.Quoted
import Scaffold.Yaml.Tag
import Scaffold.Yaml.Time
import Scaffold.Yaml.Token
import Scaffold.Proofs.Fields.Absent
import Scaffold.Proofs.Run.References
import Scaffold.Proofs.Tree.Admits
import Scaffold.Proofs.Name.Plural
import Scaffold.Proofs.Route.Commute
import Scaffold.Proofs.Run.Beside
import Scaffold.Proofs.Run.Drafted
import Scaffold.Proofs.Run.Fresh
import Scaffold.Proofs.Run.Order
import Scaffold.Proofs.Review.Names
import Scaffold.Proofs.Route.Endings
import Scaffold.Proofs.Route.Rendered
import Scaffold.Proofs.Text.Rows
import Scaffold.Proofs.Name.Lossless
import Scaffold.Proofs.Name.Usable
import Scaffold.Proofs.Layout.Autoload
import Scaffold.Proofs.Name.Mould
import Scaffold.Proofs.Php.Literal
import Scaffold.Proofs.Php.Source
import Scaffold.Proofs.Route.Group
import Scaffold.Proofs.Run.Heads
import Scaffold.Proofs.Run.Imports
import Scaffold.Proofs.Run.Parameters
import Scaffold.Proofs.Column.Labels
import Scaffold.Proofs.Column.Size
import Scaffold.Proofs.Fields.Parallel
import Scaffold.Proofs.Fields.Sortable
import Scaffold.Proofs.Schema.Policy
import Scaffold.Proofs.Config.Loads
import Scaffold.Proofs.Run.History
import Scaffold.Proofs.Template.Memory
import Scaffold.Proofs.Name.Formed
import Scaffold.Proofs.Fields.Hidden
