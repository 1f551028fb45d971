import PagedReport.Main
import PagedReport.Proofs.Canvas.Covariance
import PagedReport.Proofs.Canvas.JustifiedLines
import PagedReport.Proofs.Canvas.PageBreaks
import PagedReport.Proofs.Canvas.Restored
import PagedReport.Proofs.Colors
import PagedReport.Proofs.Font.Substitutes
import PagedReport.Proofs.Generator.Failures
import PagedReport.Proofs.Generator.Histories
import PagedReport.Proofs.Layout.BodyText
import PagedReport.Proofs.Layout.Grid
import PagedReport.Proofs.Layout.PageBands
import PagedReport.Proofs.Layout.Positions
import PagedReport.Proofs.Layout.RepeatedBands
import PagedReport.Proofs.Layout.UndisturbedBody
import PagedReport.Proofs.Number.Rounding
import PagedReport.Proofs.Pdf.GlyphWidths
import PagedReport.Proofs.Pdf.Measures
import PagedReport.Proofs.Pdf.ReadBack
import PagedReport.Proofs.Pdf.Resources
import PagedReport.Proofs.Placeholder.Comments
import PagedReport.Proofs.Placeholder.IntegerLiterals
import PagedReport.Proofs.Template.Decoders
import PagedReport.Proofs.Template.Images
import PagedReport.Proofs.Template.Schema
import PagedReport.Proofs.Text.Greedy
