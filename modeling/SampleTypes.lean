import SampleTypes.Command.Run
import SampleTypes.Generate
import SampleTypes.History.Row
import SampleTypes.History.Store
import SampleTypes.Main
import SampleTypes.Settings
import SampleTypes.Proofs.Json.Number
import SampleTypes.Proofs.Json.Quoted
import SampleTypes.Proofs.Json.Value
import SampleTypes.Proofs.Json.Reader
import SampleTypes.Proofs.Target.DataLiteral
import SampleTypes.Proofs.Files.Tree
import SampleTypes.Proofs.History.Entry
import SampleTypes.Proofs.History.Store
import SampleTypes.Proofs.History.Recency
import SampleTypes.Proofs.Layout.Page
import SampleTypes.Proofs.Layout.Inlining
import SampleTypes.Proofs.Text.Case
import SampleTypes.Proofs.Name
import SampleTypes.Proofs.Name.Spelling
import SampleTypes.Proofs.Name.Camel
import SampleTypes.Proofs.Name.Snake
import SampleTypes.Proofs.Target.Renaming
import SampleTypes.Proofs.Schema
import SampleTypes.Proofs.Target.Line
import SampleTypes.Proofs.Target.FlatPrinter
import SampleTypes.Proofs.Target.FlatPrinters
import SampleTypes.Proofs.Target.FlatText
import SampleTypes.Proofs.Target.Dart.Syntax
import SampleTypes.Proofs.Schema.Reference
import SampleTypes.Proofs.Schema.Skeleton
import SampleTypes.Proofs.Target.ClassParts
import SampleTypes.Proofs.Target.ClassSource
import SampleTypes.Proofs.Json.Accepted
import SampleTypes.Proofs.History.Kept
import SampleTypes.Proofs.Text.Blank
import SampleTypes.Proofs.Language
import SampleTypes.Proofs.History.Feature
import SampleTypes.Proofs.History.RoundTrip
import SampleTypes.Proofs.Target.LiteralText
import SampleTypes.Proofs.Files.Frame
import SampleTypes.Proofs.Target.PhpLiteral
import SampleTypes.Proofs.Command.Generate
import SampleTypes.Proofs.Target.Dart.Capture
import SampleTypes.Proofs.Target.Dart.Conversion
import SampleTypes.Proofs.Target.RubyLiteral
import SampleTypes.Proofs.Target.Imports
import SampleTypes.Proofs.Target.KotlinAnnotation
import SampleTypes.Proofs.Target.Dart.KeyLiteral
import SampleTypes.Proofs.Target.Go.Tag
import SampleTypes.Proofs.Target.Go.JsonName
import SampleTypes.Proofs.Target.JavaAccessor
import SampleTypes.Proofs.Target.RustFieldName
import SampleTypes.Proofs.Name.Identifier
import SampleTypes.Proofs.Name.Inverse
import SampleTypes.Proofs.Target.TypeScriptProperty
import SampleTypes.Proofs.Target.EscapeSyntax
import SampleTypes.Proofs.Target.RenameLiteral
import SampleTypes.Proofs.History.Saving
import SampleTypes.Proofs.Command.History
import SampleTypes.Proofs.Target.ListToken
import SampleTypes.Proofs.History.Preview
import SampleTypes.Proofs.Command.OutDirectory
import SampleTypes.Proofs.Settings
