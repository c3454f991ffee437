import CanonMark.Text.Basic
import CanonMark.Text.Ranges
import CanonMark.Text.Blank
import CanonMark.Text.Alphanumeric
import CanonMark.Text.Punctuation
import CanonMark.Text.Fold
import CanonMark.Text.Width
import CanonMark.Text.Utf8
import CanonMark.Text.Entity
import CanonMark.Document.Assembly
import CanonMark.Layout.Mark
import CanonMark.Layout.Flow
import CanonMark.Layout.Document
import CanonMark.Markdown.Content
import CanonMark.Markdown.Opener
import CanonMark.Markdown.Html
import CanonMark.Markdown.Link
import CanonMark.Markdown.Block
import CanonMark.Markdown.Reader
import CanonMark.Format
import CanonMark.Files.Document
import CanonMark.Config.Load
import CanonMark.Command.Run
import CanonMark.Main
import CanonMark.Proofs.Layout.Grammar
import CanonMark.Proofs.Layout.Fill
import CanonMark.Proofs.Layout.Nesting
import CanonMark.Proofs.Markdown.Calm
import CanonMark.Proofs.Markdown.Paragraph
import CanonMark.Proofs.Markdown.Reading
import CanonMark.Proofs.Markdown.Quotes
import CanonMark.Proofs.Markdown.Lists
import CanonMark.Proofs.Layout.Lines
import CanonMark.Proofs.Markdown.Leaves
import CanonMark.Proofs.Markdown.Sequence
import CanonMark.Proofs.Markdown.Nodes
import CanonMark.Proofs.Markdown.Trees
import CanonMark.Proofs.Outline
import CanonMark.Proofs.Document.Demands
import CanonMark.Proofs.Document.NormalForm
import CanonMark.Proofs.Layout.Reflow
import CanonMark.Proofs.Command.Writes
import CanonMark.Proofs.Layout.Greedy
import CanonMark.Proofs.Command.Isolation
import CanonMark.Proofs.Command.Modes
import CanonMark.Proofs.Layout.Spans
import CanonMark.Proofs.CodeBlocks
import CanonMark.Proofs.Layout.Autolinks
import CanonMark.Proofs.Layout.LineBreaks
import CanonMark.Proofs.Layout.Columns
import CanonMark.Proofs.Layout.Cells
import CanonMark.Proofs.Layout.Headings
import CanonMark.Proofs.Layout.Openings
import CanonMark.Proofs.Layout.Targets
import CanonMark.Proofs.Markdown.Moves
import CanonMark.Proofs.Markdown.Levels
import CanonMark.Proofs.Layout.Endings
import CanonMark.Proofs.Text.ByteOrder
import CanonMark.Proofs.Files.Scans
import CanonMark.Proofs.Config.DefaultPath
import CanonMark.Proofs.Markdown.BlockStarts
import CanonMark.Proofs.Layout.Ledgers
import CanonMark.Proofs.Layout.Flattening
import CanonMark.Proofs.Settling
