import RbacManifest.Text.Blank
import RbacManifest.Text.Split
import RbacManifest.Text.Printable
import RbacManifest.Text.Hex
import RbacManifest.Text.Quoted
import RbacManifest.Text.Digit
import RbacManifest.Text.LowerCase
import RbacManifest.Text.Utf8
import RbacManifest.Text.Line
import RbacManifest.Ordered
import RbacManifest.Rule
import RbacManifest.Rule.Violation
import RbacManifest.Rule.Aggregate
import RbacManifest.Marker
import RbacManifest.Number.Shortest
import RbacManifest.Number.Numeral
import RbacManifest.Calendar
import RbacManifest.Value
import RbacManifest.Value.Describe
import RbacManifest.Yaml.Fault
import RbacManifest.Yaml.Cell
import RbacManifest.Yaml.Gap
import RbacManifest.Yaml.Plain
import RbacManifest.Yaml.SingleQuoted
import RbacManifest.Yaml.DoubleQuoted
import RbacManifest.Yaml.Indented
import RbacManifest.Yaml.Token
import RbacManifest.Yaml.Scan
import RbacManifest.Yaml.Tree
import RbacManifest.Text.Base64
import RbacManifest.Yaml.Tag
import RbacManifest.Yaml.Node
import RbacManifest.Yaml.Scalar
import RbacManifest.Yaml.Read
import RbacManifest.Yaml.Written
import RbacManifest.Yaml.Style
import RbacManifest.Yaml.Folded
import RbacManifest.Yaml.Escaped
import RbacManifest.Yaml.Layout
import RbacManifest.FileTree
import RbacManifest.FileTree.Path
import RbacManifest.FileTree.Resolve
import RbacManifest.FileTree.Edit
import RbacManifest.Manifest.Fault
import RbacManifest.Failure
import RbacManifest.Logged
import RbacManifest.Source
import RbacManifest.Options
import RbacManifest.Environment
import RbacManifest.Schema
import RbacManifest.Configuration
import RbacManifest.Resource
import RbacManifest.Manifest
import RbacManifest.Generate
import RbacManifest.CommandLine.Switch
import RbacManifest.CommandLine.Request
import RbacManifest.CommandLine.Help
import RbacManifest.CommandLine.Run
import RbacManifest.Main
import RbacManifest.Proofs.Ordered
import RbacManifest.Proofs.Rule.Grants
import RbacManifest.Proofs.Rule.Canonical
import RbacManifest.Proofs.Rule.Permission
import RbacManifest.Proofs.FileTree.Path
import RbacManifest.Proofs.FileTree.Shape
import RbacManifest.Proofs.FileTree.Resolve
import RbacManifest.Proofs.FileTree.Write
import RbacManifest.Proofs.FailureKind
import RbacManifest.Proofs.Plan
import RbacManifest.Proofs.Generate
import RbacManifest.Proofs.Text.Utf8
import RbacManifest.Proofs.Yaml.Character
import RbacManifest.Proofs.Yaml.SingleQuoted
import RbacManifest.Proofs.Yaml.Plain
import RbacManifest.Proofs.Yaml.DoubleQuoted
import RbacManifest.Proofs.Yaml.Scan
import RbacManifest.Proofs.Yaml.Evaluated
import RbacManifest.Proofs.Yaml.Indicator
import RbacManifest.Proofs.Yaml.Scalar
import RbacManifest.Proofs.Yaml.Key
import RbacManifest.Proofs.Yaml.WrittenCharacter
import RbacManifest.Proofs.Yaml.Layout
import RbacManifest.Proofs.Yaml.Tree
import RbacManifest.Proofs.Yaml.Read
import RbacManifest.Proofs.Manifest
import RbacManifest.Proofs.Schema
import RbacManifest.Proofs.Configuration
import RbacManifest.Proofs.Marker
import RbacManifest.Proofs.Source.Written
import RbacManifest.Proofs.FileTree.LinkFree
import RbacManifest.Proofs.Repeat
import RbacManifest.Proofs.Rendered
import RbacManifest.Proofs.CommandLine.Debug
import RbacManifest.Proofs.FileTree.Names
import RbacManifest.Proofs.FileTree.LongPath
import RbacManifest.Proofs.First
import RbacManifest.Proofs.Rule.Violation
import RbacManifest.Proofs.Marker.Fault
import RbacManifest.Proofs.Source.Fault
import RbacManifest.Proofs.Outcome
import RbacManifest.Proofs.Reported
import RbacManifest.Proofs.Serialized
import RbacManifest.Proofs.Resolved
import RbacManifest.Proofs.Resource
import RbacManifest.Proofs.Manifest.Members
import RbacManifest.Proofs.Manifest.Part
import RbacManifest.Proofs.Manifest.Ordinary
import RbacManifest.Proofs.Documents
import RbacManifest.Proofs.Rule.Merged
import RbacManifest.Proofs.Rule.Inserted
import RbacManifest.Proofs.Rule.Kind
import RbacManifest.Proofs.FileTree.Reordered
import RbacManifest.Proofs.Source.Visit
import RbacManifest.Proofs.Source.Recognized
import RbacManifest.Proofs.Source.LineEnd
import RbacManifest.Proofs.Marker.Segments
import RbacManifest.Proofs.Schema.Violation
import RbacManifest.Proofs.Label
import RbacManifest.Proofs.Precedence
import RbacManifest.Proofs.CommandLine.Use
import RbacManifest.Proofs.Text.Decoded
import RbacManifest.Proofs.Source.Decoded
import RbacManifest.Proofs.Yaml.Margin
import RbacManifest.Proofs.Yaml.Piece
import RbacManifest.Proofs.Manifest.Escaped
import RbacManifest.Proofs.Yaml.BadToken
import RbacManifest.Proofs.Yaml.TreeFault
import RbacManifest.Proofs.Yaml.AbsentValue
import RbacManifest.Proofs.Configuration.Unexpected
