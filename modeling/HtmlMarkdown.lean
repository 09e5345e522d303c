import HtmlMarkdown.Main
import HtmlMarkdown.Proofs.Conservation
import HtmlMarkdown.Proofs.JoinedPage
import HtmlMarkdown.Proofs.KeptText
import HtmlMarkdown.Proofs.LinkDropping
import HtmlMarkdown.Proofs.MarginLines
import HtmlMarkdown.Proofs.Margins
import HtmlMarkdown.Proofs.Quotation
import HtmlMarkdown.Proofs.Reading
import HtmlMarkdown.Proofs.References
import HtmlMarkdown.Proofs.Rows
import HtmlMarkdown.Proofs.SecondRun
import HtmlMarkdown.Proofs.Spaced
import HtmlMarkdown.Proofs.TextLeaves
import HtmlMarkdown.Proofs.Totality
import HtmlMarkdown.Proofs.SpacedDocument
import HtmlMarkdown.Proofs.FilledBlocks
import HtmlMarkdown.Proofs.AlikeCounts
import HtmlMarkdown.Proofs.BlankEnds
import HtmlMarkdown.Proofs.SpacedPage
import HtmlMarkdown.Proofs.Scrambled
import HtmlMarkdown.Proofs.ParentLinks
import HtmlMarkdown.Proofs.QuoteAround
import HtmlMarkdown.Proofs.JoinedDocuments
import HtmlMarkdown.Proofs.GreedyRows
import HtmlMarkdown.Proofs.ClusterWidth
import HtmlMarkdown.Proofs.LineWidth
import HtmlMarkdown.Proofs.KeptLines
import HtmlMarkdown.Proofs.Wrapping
import HtmlMarkdown.Proofs.FirstLines
import HtmlMarkdown.Proofs.SeparatingLines
import HtmlMarkdown.Proofs.NumberedLists
import HtmlMarkdown.Proofs.PairedBreaks
import HtmlMarkdown.Proofs.ClipboardPrograms
import HtmlMarkdown.Proofs.FailedCalls
import HtmlMarkdown.Proofs.HexLiteral
import HtmlMarkdown.Proofs.Legible
import HtmlMarkdown.Proofs.Dumps
import HtmlMarkdown.Proofs.SameShape
import HtmlMarkdown.Proofs.WesternUnits
import HtmlMarkdown.Proofs.TemporaryFile
import HtmlMarkdown.Proofs.OptInFile
import HtmlMarkdown.Proofs.Splice
