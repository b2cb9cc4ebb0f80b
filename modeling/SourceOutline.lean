import SourceOutline.Files.Tree
import SourceOutline.Main
import SourceOutline.Proofs.Json.Spelling
import SourceOutline.Proofs.Outline.Definitions
import SourceOutline.Proofs.Report.OfProgram
import SourceOutline.Proofs.Json.Reading
import SourceOutline.Proofs.Json.Member
import SourceOutline.Proofs.Json.Shape
import SourceOutline.Proofs.Json.Faithful
import SourceOutline.Proofs.Report.RoundTrip
import SourceOutline.Proofs.Response.RoundTrip
import SourceOutline.Proofs.Exchange.Lines
import SourceOutline.Proofs.Exchange.Conversation
import SourceOutline.Proofs.Target.FirstInvalid
import SourceOutline.Proofs.Analysis.Agreement
import SourceOutline.Proofs.Files.Collection
import SourceOutline.Proofs.Exchange.Answers
import SourceOutline.Proofs.Target.Coverage
import SourceOutline.Proofs.Target.Shapes
import SourceOutline.Proofs.Outline.Extent
import SourceOutline.Proofs.Report.Ascending
import SourceOutline.Proofs.CommandLine.Batch
import SourceOutline.Proofs.Position.Bytes
import SourceOutline.Proofs.Position.Correspondence
import SourceOutline.Proofs.Outline.Returns
import SourceOutline.Proofs.Outline.Behind
import SourceOutline.Proofs.Report.Pushing
import SourceOutline.Proofs.Report.Dispatch
import SourceOutline.Proofs.Report.OfTree
import SourceOutline.Proofs.Json.Indentation
import SourceOutline.Proofs.Response.InFront
import SourceOutline.Proofs.Response.Tolerance
import SourceOutline.Proofs.Exchange.Classification
import SourceOutline.Proofs.Config.Order
import SourceOutline.Proofs.Node.Preorder
import SourceOutline.Proofs.Position.Starts
import SourceOutline.Proofs.Outline.Search
import SourceOutline.Proofs.Target.Comprehension
