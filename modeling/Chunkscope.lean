import Chunkscope.Contract
import Chunkscope.Main
import Chunkscope.Vectors
import Chunkscope.Proofs.Varint.Canonical
import Chunkscope.Proofs.Transform.History
import Chunkscope.Proofs.Transform.Renewal
import Chunkscope.Proofs.Listing.Reassembly
import Chunkscope.Proofs.Listing.Diagnostics
import Chunkscope.Proofs.Chunk.Framing
import Chunkscope.Proofs.Column.Formats
import Chunkscope.Proofs.Column.Values
import Chunkscope.Proofs.Body.Document
import Chunkscope.Proofs.Body.Change
import Chunkscope.Proofs.Body.Canonical
import Chunkscope.Proofs.Column.Lookup
import Chunkscope.Proofs.Body.Lookup
import Chunkscope.Proofs.Column.Limit
import Chunkscope.Chunk.Splitter
import Chunkscope.Proofs.Chunk.Agreement
import Chunkscope.Proofs.Chunk.Splitting
import Chunkscope.Proofs.Chunk.Locality
import Chunkscope.Proofs.Listing.Comments
import Chunkscope.Proofs.Listing.Independence
import Chunkscope.Proofs.Listing.TextForm
import Chunkscope.Proofs.Transform.Emission
import Chunkscope.Proofs.Varint.Lenient
import Chunkscope.Proofs.Column.Running
import Chunkscope.Proofs.Column.OverflowReports
import Chunkscope.Proofs.Column.CleanValues
import Chunkscope.Proofs.Column.EmptyList
import Chunkscope.Proofs.Column.Slicing
import Chunkscope.Proofs.Column.EntryLimit
import Chunkscope.Proofs.Column.Containment
import Chunkscope.Proofs.Column.Alternation
import Chunkscope.Proofs.Listing.Outline
import Chunkscope.Proofs.Listing.Verdicts
import Chunkscope.Proofs.Listing.Verification
import Chunkscope.Proofs.Column.Windows
import Chunkscope.Proofs.Column.Turns
import Chunkscope.Proofs.Column.Announced
import Chunkscope.Proofs.Body.Counted
