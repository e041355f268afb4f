import BlockTemplate.Cache.Basic
import BlockTemplate.Callback.Basic
import BlockTemplate.Callback.Default
import BlockTemplate.Callback.Dump
import BlockTemplate.CommandLine.Assignment
import BlockTemplate.CommandLine.Command
import BlockTemplate.CommandLine.Run
import BlockTemplate.Condition.Evaluate
import BlockTemplate.Config.Basic
import BlockTemplate.Config.Load
import BlockTemplate.Config.Read
import BlockTemplate.Digest.Sha1
import BlockTemplate.Directory.Basic
import BlockTemplate.Directory.Change
import BlockTemplate.FileError
import BlockTemplate.Include
import BlockTemplate.Json.Basic
import BlockTemplate.Json.Reader
import BlockTemplate.Key
import BlockTemplate.Label
import BlockTemplate.Main
import BlockTemplate.Markup.Cleanup
import BlockTemplate.Markup.Construct
import BlockTemplate.Markup.Marker
import BlockTemplate.NestingError
import BlockTemplate.Node.Basic
import BlockTemplate.Number.Arithmetic
import BlockTemplate.Number.Binary64
import BlockTemplate.Number.Decimal
import BlockTemplate.Number.Text
import BlockTemplate.OrderedMap
import BlockTemplate.Proofs.Cache.Loading
import BlockTemplate.Proofs.Cache.Names
import BlockTemplate.Proofs.Cache.RoundTrip
import BlockTemplate.Proofs.Cache.Soundness
import BlockTemplate.Proofs.Cache.Transparency
import BlockTemplate.Proofs.Condition.Evaluation
import BlockTemplate.Proofs.Condition.Spacing
import BlockTemplate.Proofs.Condition.Transposition
import BlockTemplate.Proofs.Config.Reading
import BlockTemplate.Proofs.Include.Expansion
import BlockTemplate.Proofs.Markup.Collapsed
import BlockTemplate.Proofs.Markup.Ends
import BlockTemplate.Proofs.Markup.Extent
import BlockTemplate.Proofs.Markup.Markers
import BlockTemplate.Proofs.Number.Remainder
import BlockTemplate.Proofs.Reference.Printing
import BlockTemplate.Proofs.Reference.Substitution
import BlockTemplate.Proofs.Render.Lending
import BlockTemplate.Proofs.Session.Agreement
import BlockTemplate.Proofs.Session.Assignment
import BlockTemplate.Proofs.Session.Delivery
import BlockTemplate.Proofs.Session.Failure
import BlockTemplate.Proofs.Session.Footprint
import BlockTemplate.Proofs.Session.Globals
import BlockTemplate.Proofs.Session.Navigation
import BlockTemplate.Proofs.Session.Report
import BlockTemplate.Proofs.Session.Snapshot
import BlockTemplate.Proofs.Template.Cleanup
import BlockTemplate.Proofs.Template.LiteralText
import BlockTemplate.Proofs.Template.NestedBodies
import BlockTemplate.Proofs.Template.Reconstruction
import BlockTemplate.Proofs.Template.RoundTrip
import BlockTemplate.Proofs.Template.Segments
import BlockTemplate.Proofs.Text.Chain
import BlockTemplate.Proofs.Text.Words
import BlockTemplate.Proofs.Value.Duality
import BlockTemplate.Proofs.Value.Equality
import BlockTemplate.Proofs.Value.IntegerText
import BlockTemplate.Proofs.Value.LeadingNumber
import BlockTemplate.Proofs.Value.StrictEquality
import BlockTemplate.Reference.Basic
import BlockTemplate.Reference.Depth
import BlockTemplate.Reference.Parse
import BlockTemplate.Reference.Resolve
import BlockTemplate.Render.Node
import BlockTemplate.Session.Basic
import BlockTemplate.Session.Files
import BlockTemplate.Session.Open
import BlockTemplate.Stored.Node
import BlockTemplate.Stored.Reading
import BlockTemplate.Stored.Reference
import BlockTemplate.Tag.Depth
import BlockTemplate.Template.Source
import BlockTemplate.Text.Basic
import BlockTemplate.Text.Blank
import BlockTemplate.Text.CaseMap
import BlockTemplate.Text.Digit
import BlockTemplate.Text.Nesting
import BlockTemplate.Text.Pieces
import BlockTemplate.Text.Printable
import BlockTemplate.Text.Quoted
import BlockTemplate.Text.Range
import BlockTemplate.Text.Word
import BlockTemplate.Text.Words
import BlockTemplate.Value.Basic
import BlockTemplate.Value.Compare
import BlockTemplate.Value.Json
import BlockTemplate.Value.Numeric
import BlockTemplate.Value.Path
import BlockTemplate.Value.Sharing
import BlockTemplate.Value.Text
import BlockTemplate.Yaml.Document
