import CaretReport.Binary64
import CaretReport.Blank
import CaretReport.Capacity
import CaretReport.Choice
import CaretReport.CodeRange
import CaretReport.Config
import CaretReport.ConfigReading
import CaretReport.Console
import CaretReport.Decimal
import CaretReport.Delivery
import CaretReport.Digit
import CaretReport.Draft
import CaretReport.Drawing
import CaretReport.Escape
import CaretReport.Excerpt
import CaretReport.FloatNumeral
import CaretReport.Host.CellWidth
import CaretReport.Host.ColorName
import CaretReport.Host.ConsoleLine
import CaretReport.Host.OptionNumeral
import CaretReport.Host.OptionReading
import CaretReport.Host.WideCharacter
import CaretReport.Host.ZeroWidth
import CaretReport.IntegerText
import CaretReport.Journal
import CaretReport.Label
import CaretReport.LetterCase
import CaretReport.Line
import CaretReport.Merge
import CaretReport.Message
import CaretReport.OutputToken
import CaretReport.Paint
import CaretReport.Pen
import CaretReport.PenAttribute
import CaretReport.PenColor
import CaretReport.PlacedLabel
import CaretReport.Position
import CaretReport.Printable
import CaretReport.Progression
import CaretReport.Proofs.AcceptedSequences
import CaretReport.Proofs.BareReport
import CaretReport.Proofs.BuiltLines
import CaretReport.Proofs.CalloutAlignment
import CaretReport.Proofs.CalloutRows
import CaretReport.Proofs.CaretColumns
import CaretReport.Proofs.CaretOwners
import CaretReport.Proofs.ChildWidth
import CaretReport.Proofs.ClampedRanges
import CaretReport.Proofs.ColorChoice
import CaretReport.Proofs.ColorRuns
import CaretReport.Proofs.CompactLines
import CaretReport.Proofs.ConnectorColumns
import CaretReport.Proofs.DeliveryRuns
import CaretReport.Proofs.DisplayedStyles
import CaretReport.Proofs.DraftFaults
import CaretReport.Proofs.DraftOutcome
import CaretReport.Proofs.DraftStages
import CaretReport.Proofs.EqualStarts
import CaretReport.Proofs.ExcerptShift
import CaretReport.Proofs.ExcerptText
import CaretReport.Proofs.GlyphColors
import CaretReport.Proofs.IndentedLines
import CaretReport.Proofs.InterruptedSequences
import CaretReport.Proofs.KeptText
import CaretReport.Proofs.LabelOrder
import CaretReport.Proofs.LabelPlacement
import CaretReport.Proofs.MinimalStacks
import CaretReport.Proofs.MovedSegments
import CaretReport.Proofs.NumeralText
import CaretReport.Proofs.OverlapComponents
import CaretReport.Proofs.PaintedEcho
import CaretReport.Proofs.ParallelMerges
import CaretReport.Proofs.PiecewiseLines
import CaretReport.Proofs.PlainReport
import CaretReport.Proofs.PushOrder
import CaretReport.Proofs.RepeatedStarts
import CaretReport.Proofs.RestyledLines
import CaretReport.Proofs.RunWidths
import CaretReport.Proofs.SegmentGroups
import CaretReport.Proofs.SegmentLines
import CaretReport.Proofs.SequencePieces
import CaretReport.Proofs.SpansInBounds
import CaretReport.Proofs.StyleSequences
import CaretReport.Proofs.StyledChars
import CaretReport.Proofs.TextLines
import CaretReport.Proofs.Traversal
import CaretReport.Proofs.UnderbarCoverage
import CaretReport.Proofs.VisibleText
import CaretReport.Proofs.WiderWindows
import CaretReport.Proofs.WordWindow
import CaretReport.Proofs.WrappedText
import CaretReport.Quoted
import CaretReport.Report
import CaretReport.Search
import CaretReport.Segment
import CaretReport.Separated
import CaretReport.Span
import CaretReport.SpanSpelling
import CaretReport.Style
import CaretReport.StyleName
import CaretReport.StyleStack
import CaretReport.TerminalText
import CaretReport.Token
import CaretReport.Value
import CaretReport.Wrap
