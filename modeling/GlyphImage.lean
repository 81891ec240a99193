import GlyphImage.Bytes.Bits
import GlyphImage.Main
import GlyphImage.Proofs.Pff2.RoundTrip
import GlyphImage.Proofs.Run
import GlyphImage.Proofs.Pixmap.Limits
import GlyphImage.Proofs.Pff2.Cutting
import GlyphImage.Proofs.Pff2.Reordering
import GlyphImage.Proofs.Pff2.Indifference
import GlyphImage.Proofs.Canvas.Allocation
import GlyphImage.Proofs.TrueType.Glyphs
import GlyphImage.Proofs.Font.Rendering
import GlyphImage.Proofs.Pff2.Verdict
import GlyphImage.Proofs.Pff2.Warnings
import GlyphImage.Proofs.Report
import GlyphImage.Proofs.Job
import GlyphImage.CommandLine.Spelling
import GlyphImage.Proofs.CommandLine.Grammar
import GlyphImage.Proofs.CommandLine.Settings
import GlyphImage.Proofs.CommandLine.Sizes
import GlyphImage.Proofs.Pff2.Scan
