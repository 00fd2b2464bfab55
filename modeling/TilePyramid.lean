import TilePyramid.Tile.Relative
import TilePyramid.LevelSet
import TilePyramid.Geo.FixedPoint
import TilePyramid.Scheme.Cover
import TilePyramid.Config.Read
import TilePyramid.Config.Readers
import TilePyramid.Config.Setup
import TilePyramid.Proofs.Junction
import TilePyramid.Proofs.Squares
import TilePyramid.Proofs.Skipping
import TilePyramid.Proofs.Nesting
import TilePyramid.Proofs.Union
import TilePyramid.Proofs.Names
import TilePyramid.Proofs.Subtree
import TilePyramid.Proofs.Ancestry
import TilePyramid.Proofs.Grid
import TilePyramid.Proofs.Masks
import TilePyramid.Proofs.Scan
import TilePyramid.Proofs.Wrapping
import TilePyramid.Proofs.TileBox
import TilePyramid.Proofs.Span
import TilePyramid.Proofs.Levels
import TilePyramid.Proofs.Numerals
import TilePyramid.Proofs.Domain
import TilePyramid.Proofs.Growth
import TilePyramid.Proofs.Middle
import TilePyramid.Proofs.Steps
import TilePyramid.Proofs.OldPlaces
import TilePyramid.Proofs.Current
import TilePyramid.Proofs.LevelChanges
import TilePyramid.Proofs.Neighbours
import TilePyramid.Proofs.LevelSizes
import TilePyramid.Proofs.Vertices
