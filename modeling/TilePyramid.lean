import TilePyramid.Arith
import TilePyramid.Box.Cell
import TilePyramid.Box.Degrees
import TilePyramid.Box.Pixel
import TilePyramid.Codec.BitSink
import TilePyramid.Codec.BitSource
import TilePyramid.Codec.Bytes
import TilePyramid.Codec.Checksum
import TilePyramid.Codec.Deflate
import TilePyramid.Codec.Inflate
import TilePyramid.Codec.PrefixCode
import TilePyramid.Command.Arguments
import TilePyramid.Command.Flag
import TilePyramid.Command.Reader
import TilePyramid.Command.Report
import TilePyramid.Command.Run
import TilePyramid.Decimal.Reader
import TilePyramid.Decimal.Shortest
import TilePyramid.Decimal.Text
import TilePyramid.Error
import TilePyramid.Georef.Affine
import TilePyramid.Georef.Cartography
import TilePyramid.Georef.Datum
import TilePyramid.Georef.Projection.Azimuthal
import TilePyramid.Georef.Projection.Conic
import TilePyramid.Georef.Projection.Cylindrical
import TilePyramid.Georef.Projection.Definition
import TilePyramid.Georef.Projection.Ellipsoid
import TilePyramid.Georef.Projection.TransverseMercator
import TilePyramid.Georef.Reference
import TilePyramid.Georef.Transform
import TilePyramid.Georef.WorldFile
import TilePyramid.Jpeg.Bits
import TilePyramid.Jpeg.Cosine
import TilePyramid.Jpeg.Frame
import TilePyramid.Jpeg.Reader
import TilePyramid.Jpeg.Scan
import TilePyramid.Jpeg.Tables
import TilePyramid.Jpeg.Writer
import TilePyramid.Json.Reader
import TilePyramid.Json.Value
import TilePyramid.Main
import TilePyramid.Mosaic.Composite
import TilePyramid.Mosaic.Placement
import TilePyramid.Mosaic.Resolution
import TilePyramid.Mosaic.Run
import TilePyramid.Options.Basic
import TilePyramid.Options.File
import TilePyramid.Options.Names
import TilePyramid.Path
import TilePyramid.Png.Chunk
import TilePyramid.Png.Filter
import TilePyramid.Png.Header
import TilePyramid.Png.Reader
import TilePyramid.Png.Writer
import TilePyramid.Progress
import TilePyramid.Proofs.Sweep
import TilePyramid.Pyramid.Canvas
import TilePyramid.Pyramid.Format
import TilePyramid.Pyramid.Generator
import TilePyramid.Pyramid.Kml
import TilePyramid.Pyramid.Metadata
import TilePyramid.Pyramid.Mode
import TilePyramid.Pyramid.Plan
import TilePyramid.Pyramid.Rendering
import TilePyramid.Pyramid.Tree
import TilePyramid.Pyramid.Viewer
import TilePyramid.Raster.Adjustment
import TilePyramid.Raster.Basic
import TilePyramid.Raster.Channel
import TilePyramid.Raster.Encoding
import TilePyramid.Raster.Image
import TilePyramid.Raster.Range
import TilePyramid.Raster.Sampling
import TilePyramid.Source
import TilePyramid.Source.ImageFile
import TilePyramid.Store.FileBytes
import TilePyramid.Store.FileTree
import TilePyramid.Store.Memory
import TilePyramid.Store.PathMap
import TilePyramid.Store.Writer
import TilePyramid.Text.Blank
import TilePyramid.Text.Quoted
import TilePyramid.Proofs.Regions
import TilePyramid.Proofs.Cells
import TilePyramid.Proofs.Generation
import TilePyramid.Proofs.LevelImages
import TilePyramid.Proofs.Binary32
import TilePyramid.Proofs.PixelWords
import TilePyramid.Proofs.WordReads
import TilePyramid.Proofs.Blending
import TilePyramid.Proofs.ExactPlacement
import TilePyramid.Proofs.DateLine
import TilePyramid.Proofs.AlignedBox
import TilePyramid.Proofs.Depth
import TilePyramid.Proofs.Resolving
import TilePyramid.Proofs.CanvasRun
import TilePyramid.Proofs.JoinedPaths
import TilePyramid.Proofs.FinishedRuns
import TilePyramid.Proofs.CanvasCells
import TilePyramid.Proofs.Turns
import TilePyramid.Proofs.DegreeGrids
import TilePyramid.Proofs.LabelledRuns
import TilePyramid.Proofs.OutsideImage
import TilePyramid.Proofs.TilePaths
import TilePyramid.Proofs.StoredTiles
import TilePyramid.Proofs.DocumentLines
import TilePyramid.Proofs.LinkedDocuments
import TilePyramid.Proofs.WriterCalls
import TilePyramid.Proofs.Interruptions
import TilePyramid.Proofs.Lifecycle
import TilePyramid.Proofs.UntouchedStores
import TilePyramid.Proofs.EntryDocument
import TilePyramid.Proofs.ExactArithmetic
import TilePyramid.Proofs.AdjustedPixels
import TilePyramid.Proofs.NormalizedValues
import TilePyramid.Proofs.SharedRange
import TilePyramid.Proofs.GridTransforms
import TilePyramid.Proofs.GridImages
import TilePyramid.Proofs.EveryPixel
import TilePyramid.Proofs.ColourBounds
import TilePyramid.Proofs.InsertionOrder
import TilePyramid.Proofs.RasterShapes
import TilePyramid.Proofs.CommonFormat
import TilePyramid.Proofs.LeastCell
import TilePyramid.Proofs.BlendOrder
import TilePyramid.Proofs.AffineImages
import TilePyramid.Proofs.SteadyReports
import TilePyramid.Proofs.LeafCount
import TilePyramid.Proofs.PlannedReports
import TilePyramid.Proofs.ReceivedReports
import TilePyramid.Proofs.WestEdge
import TilePyramid.Proofs.SampledMeans
import TilePyramid.Proofs.EdgeModes
import TilePyramid.Proofs.WholeNumbers
import TilePyramid.Proofs.SingleWholes
import TilePyramid.Proofs.StoredImages
import TilePyramid.Proofs.RealArithmetic
import TilePyramid.Proofs.LeastTotal
import TilePyramid.Proofs.CheckedOptions
import TilePyramid.Proofs.LateFaults
import TilePyramid.Proofs.DrawOrder
import TilePyramid.Proofs.WorldFiles
import TilePyramid.Proofs.MergedArguments
import TilePyramid.Proofs.ShiftedGlobe
import TilePyramid.Proofs.FoundNodes
import TilePyramid.Proofs.WordSizes
