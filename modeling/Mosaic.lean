import Mosaic.Config.File
import Mosaic.Config.Overrides
import Mosaic.Coordinate.Float
import Mosaic.Coordinate.Rational
import Mosaic.Layout.Candidates
import Mosaic.Layout.Handles
import Mosaic.Layout.Matching
import Mosaic.Layout.Removal
import Mosaic.Layout.Validity
import Mosaic.Mismatch
import Mosaic.Proofs.Bands
import Mosaic.Proofs.Bookkeeping
import Mosaic.Proofs.Bounds
import Mosaic.Proofs.Boxes
import Mosaic.Proofs.Comparisons
import Mosaic.Proofs.ContactHandles
import Mosaic.Proofs.Contacts
import Mosaic.Proofs.Correspondence
import Mosaic.Proofs.CutCounts
import Mosaic.Proofs.Digits
import Mosaic.Proofs.Division
import Mosaic.Proofs.DoubleRestore
import Mosaic.Proofs.DoubleRuns
import Mosaic.Proofs.Doubles
import Mosaic.Proofs.Drags
import Mosaic.Proofs.Edits
import Mosaic.Proofs.Entries
import Mosaic.Proofs.Enumeration
import Mosaic.Proofs.Exact
import Mosaic.Proofs.ExactAreas
import Mosaic.Proofs.ExactCandidates
import Mosaic.Proofs.ExactHalves
import Mosaic.Proofs.ExactNeighbours
import Mosaic.Proofs.ExactRemovals
import Mosaic.Proofs.ExactSamples
import Mosaic.Proofs.Extents
import Mosaic.Proofs.Findings
import Mosaic.Proofs.FineMesh
import Mosaic.Proofs.Growth
import Mosaic.Proofs.HandleContents
import Mosaic.Proofs.HandleList
import Mosaic.Proofs.HandlePairs
import Mosaic.Proofs.Handles
import Mosaic.Proofs.Heirs
import Mosaic.Proofs.Library
import Mosaic.Proofs.Lists
import Mosaic.Proofs.Magnitudes
import Mosaic.Proofs.Occupancy
import Mosaic.Proofs.Overrides
import Mosaic.Proofs.Pairings
import Mosaic.Proofs.Pinwheel
import Mosaic.Proofs.ReadBack
import Mosaic.Proofs.Relabelling
import Mosaic.Proofs.Removal
import Mosaic.Proofs.Restore
import Mosaic.Proofs.RoundTrip
import Mosaic.Proofs.Rounding
import Mosaic.Proofs.Run
import Mosaic.Proofs.Sampling
import Mosaic.Proofs.Sides
import Mosaic.Proofs.Split
import Mosaic.Proofs.SplitOnly
import Mosaic.Proofs.Tiling
import Mosaic.Proofs.TotalOrder
import Mosaic.Proofs.Transposition
import Mosaic.Proofs.Validation
import Mosaic.Proofs.WellFormedHandles
import Mosaic.Proofs.WholeNumbers
import Mosaic.Report
import Mosaic.Report.Json
import Mosaic.Session
import Mosaic.Text.Blank
