import SyntaxForest.Category
import SyntaxForest.CommandLine.Arguments
import SyntaxForest.CommandLine.Artifact
import SyntaxForest.CommandLine.Batch
import SyntaxForest.CommandLine.ExitStatus
import SyntaxForest.CommandLine.Options
import SyntaxForest.CommandLine.ParseTables
import SyntaxForest.CommandLine.Run
import SyntaxForest.Discovery
import SyntaxForest.Dot
import SyntaxForest.Failure
import SyntaxForest.Field
import SyntaxForest.FileStore
import SyntaxForest.Forest
import SyntaxForest.Forest.Build
import SyntaxForest.Forest.Text
import SyntaxForest.ImageProgram
import SyntaxForest.Java.Category
import SyntaxForest.Java.Fields
import SyntaxForest.Java.MethodDump
import SyntaxForest.Java.ParseTree
import SyntaxForest.Java.Projection
import SyntaxForest.Java.Rows
import SyntaxForest.Java.Source
import SyntaxForest.Json
import SyntaxForest.Label
import SyntaxForest.Main
import SyntaxForest.NameMap
import SyntaxForest.Outline
import SyntaxForest.Path
import SyntaxForest.Policy
import SyntaxForest.Proofs.ArtifactCollisions
import SyntaxForest.Proofs.Artifacts
import SyntaxForest.Proofs.Batches
import SyntaxForest.Proofs.CollapsedText
import SyntaxForest.Proofs.Comments
import SyntaxForest.Proofs.Contraction
import SyntaxForest.Proofs.DirectoryWalks
import SyntaxForest.Proofs.DocumentOrder
import SyntaxForest.Proofs.DotEscapes
import SyntaxForest.Proofs.DotText
import SyntaxForest.Proofs.DumpJson
import SyntaxForest.Proofs.FailureRemarks
import SyntaxForest.Proofs.FirstMethod
import SyntaxForest.Proofs.ForestCalls
import SyntaxForest.Proofs.ForestCycles
import SyntaxForest.Proofs.ForestDot
import SyntaxForest.Proofs.ForestIndex
import SyntaxForest.Proofs.ForestJson
import SyntaxForest.Proofs.ForestPaths
import SyntaxForest.Proofs.JsonReader
import SyntaxForest.Proofs.LabelLines
import SyntaxForest.Proofs.NameMap
import SyntaxForest.Proofs.OutlineLevels
import SyntaxForest.Proofs.OutlineNesting
import SyntaxForest.Proofs.ParseComments
import SyntaxForest.Proofs.ParseErrors
import SyntaxForest.Proofs.ParseOrder
import SyntaxForest.Proofs.PathNames
import SyntaxForest.Proofs.PathOrder
import SyntaxForest.Proofs.PathParents
import SyntaxForest.Proofs.Projection
import SyntaxForest.Proofs.Renumbering
import SyntaxForest.Proofs.RunEffects
import SyntaxForest.Proofs.SettingsRoundTrip
import SyntaxForest.Proofs.SingleLines
import SyntaxForest.Proofs.Snippet
import SyntaxForest.Proofs.SourcePositions
import SyntaxForest.Proofs.Splice
import SyntaxForest.Proofs.StackWalk
import SyntaxForest.Proofs.StorePaths
import SyntaxForest.Proofs.StoreTrees
import SyntaxForest.Proofs.StoreWrites
import SyntaxForest.Proofs.TomlDocument
import SyntaxForest.Proofs.TomlStrings
import SyntaxForest.Proofs.TreeCopies
import SyntaxForest.Proofs.TreeHistory
import SyntaxForest.Proofs.TreeLinks
import SyntaxForest.Proofs.Words
import SyntaxForest.Settings
import SyntaxForest.Settings.Document
import SyntaxForest.Settings.Store
import SyntaxForest.Shape
import SyntaxForest.StyleSheet
import SyntaxForest.SystemError
import SyntaxForest.Text.Blank
import SyntaxForest.Text.Combining
import SyntaxForest.Text.Quoted
import SyntaxForest.Text.Quotient
import SyntaxForest.Text.Unassigned
import SyntaxForest.Toml.DateTime
import SyntaxForest.Toml.DateTimeTable
import SyntaxForest.Toml.Document
import SyntaxForest.Toml.Format
import SyntaxForest.Toml.Number
import SyntaxForest.Toml.Table
import SyntaxForest.Toml.Text
import SyntaxForest.Toml.Writer
import SyntaxForest.Tree
