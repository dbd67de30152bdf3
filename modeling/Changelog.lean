import Changelog.Attribute
import Changelog.Color
import Changelog.CommandLine.Help
import Changelog.CommandLine.Listing
import Changelog.CommandLine.Options
import Changelog.CommandLine.Run
import Changelog.Configuration.File
import Changelog.Configuration.Merge
import Changelog.Configuration.Source
import Changelog.Download.Batches
import Changelog.Download.Client
import Changelog.Download.RemoteSet
import Changelog.Download.Slot
import Changelog.Download.Worker
import Changelog.Drawing.Canvas
import Changelog.Drawing.Decorated
import Changelog.Drawing.Json
import Changelog.Drawing.LinkRegions
import Changelog.Drawing.Measurer
import Changelog.Drawing.Renderer
import Changelog.Drawing.Wrap
import Changelog.Entry.Open
import Changelog.Entry.Record
import Changelog.Entry.Slot
import Changelog.Files.Content
import Changelog.Files.Path
import Changelog.Files.Tree
import Changelog.Format.Data
import Changelog.Format.Json
import Changelog.Format.Json.Document
import Changelog.Format.Toml.Document
import Changelog.Format.Toml.Lexeme
import Changelog.Format.Toml.Tables
import Changelog.Geometry
import Changelog.Image.Cache
import Changelog.Image.Directory
import Changelog.Image.Header
import Changelog.Image.Texture
import Changelog.Layout.Animation
import Changelog.Layout.Container
import Changelog.Layout.Document
import Changelog.Layout.HeightIndex
import Changelog.Layout.SegmentDrawing
import Changelog.Layout.SegmentHeight
import Changelog.Log.Disk
import Changelog.Log.Target
import Changelog.Main
import Changelog.Markup.Annotations
import Changelog.Markup.Pattern
import Changelog.Markup.Piece
import Changelog.Markup.Registry
import Changelog.Markup.Segment
import Changelog.Markup.Tag
import Changelog.NameMap
import Changelog.Notice
import Changelog.Number.Binary
import Changelog.Number.Decimal
import Changelog.Number.Hexadecimal
import Changelog.Number.Integer
import Changelog.Number.Shortest
import Changelog.Proofs.Attribute.Failure
import Changelog.Proofs.Attribute.LastValue
import Changelog.Proofs.Attribute.Spelling
import Changelog.Proofs.Attribute.Token
import Changelog.Proofs.Color.Grammar
import Changelog.Proofs.Color.RoundTrip
import Changelog.Proofs.Configuration.WidthPrecedence
import Changelog.Proofs.Download.Availability
import Changelog.Proofs.Download.Batch
import Changelog.Proofs.Download.Disposal
import Changelog.Proofs.Download.Interleaving
import Changelog.Proofs.Download.Registration
import Changelog.Proofs.Download.SharedSlot
import Changelog.Proofs.Download.Succession
import Changelog.Proofs.Download.Turn
import Changelog.Proofs.Drawing.Borders
import Changelog.Proofs.Drawing.Extent
import Changelog.Proofs.Drawing.FewestLines
import Changelog.Proofs.Drawing.HitTest
import Changelog.Proofs.Drawing.LineRuns
import Changelog.Proofs.Drawing.Marks
import Changelog.Proofs.Drawing.Matches
import Changelog.Proofs.Drawing.Occurrences
import Changelog.Proofs.Drawing.ParagraphLines
import Changelog.Proofs.Drawing.Placement
import Changelog.Proofs.Drawing.Recovery
import Changelog.Proofs.Drawing.Replacement
import Changelog.Proofs.Drawing.Reports
import Changelog.Proofs.Drawing.Resolved
import Changelog.Proofs.Drawing.Rows
import Changelog.Proofs.Drawing.Shift
import Changelog.Proofs.Drawing.SpriteSheet
import Changelog.Proofs.Drawing.Step
import Changelog.Proofs.Drawing.Stripping
import Changelog.Proofs.Drawing.Tiling
import Changelog.Proofs.Drawing.WordWrap
import Changelog.Proofs.Drawing.WrappedLines
import Changelog.Proofs.Entry.Frames
import Changelog.Proofs.Entry.Freshness
import Changelog.Proofs.Entry.Interruption
import Changelog.Proofs.Entry.Pass
import Changelog.Proofs.Entry.Release
import Changelog.Proofs.Entry.Viewport
import Changelog.Proofs.Exact
import Changelog.Proofs.Files.Tree
import Changelog.Proofs.Image.Loading
import Changelog.Proofs.Image.Textures
import Changelog.Proofs.Image.Walk
import Changelog.Proofs.Layout.Agreement
import Changelog.Proofs.Layout.AnimationCycle
import Changelog.Proofs.Layout.ContainerBounds
import Changelog.Proofs.Layout.HeightRuns
import Changelog.Proofs.Layout.HeightSums
import Changelog.Proofs.Layout.Offsets
import Changelog.Proofs.Layout.RowLookup
import Changelog.Proofs.Layout.RowSearch
import Changelog.Proofs.Layout.Rows
import Changelog.Proofs.Layout.Sizes
import Changelog.Proofs.Layout.VisibleRange
import Changelog.Proofs.Layout.WordSums
import Changelog.Proofs.Markup.Alternation
import Changelog.Proofs.Markup.Lossless
import Changelog.Proofs.Markup.PatternRuns
import Changelog.Proofs.Markup.PatternText
import Changelog.Proofs.Markup.Registration
import Changelog.Proofs.Markup.RoundTrip
import Changelog.Proofs.NameMap
import Changelog.Proofs.Notice
import Changelog.Proofs.Number.DecimalText
import Changelog.Proofs.Number.Decoding
import Changelog.Proofs.Number.Place
import Changelog.Proofs.Number.Product
import Changelog.Proofs.Number.Rounding
import Changelog.Proofs.OrderedScalar
import Changelog.Proofs.Text.Marker
import Changelog.Proofs.Text.Slice
import Changelog.Proofs.Text.Words
import Changelog.Scalar
import Changelog.Settings
import Changelog.Style
import Changelog.Text.Basic
import Changelog.Text.Blank
import Changelog.Text.Quoted
import Changelog.Text.Upper
import Changelog.Text.Width
import Changelog.Text.Width.Classes
