import RingScan.Document.Collect
import RingScan.Document.Writer
import RingScan.Job.Document
import RingScan.Main
import RingScan.Memory.Node
import RingScan.Plan.Report
import RingScan.Proofs.Ring.Order
import RingScan.Proofs.Scan.History
import RingScan.Reader.Basic
import RingScan.Ring.Document
import RingScan.Table.Document
import RingScan.Text.Quoted
import RingScan.Proofs.Memory.Pages
import RingScan.Proofs.Scan.Delivery
import RingScan.Proofs.Ring.Tiling
import RingScan.Proofs.Row.Place
import RingScan.Proofs.Memory.Table
import RingScan.Proofs.Reader.Drain
import RingScan.Proofs.Reader.Memory
import RingScan.Proofs.Reader.Coverage
import RingScan.Proofs.Query.Condition
import RingScan.Proofs.Value.Quiet
import RingScan.Proofs.Query.Quotes
import RingScan.Proofs.Cluster.Interleaving
import RingScan.Proofs.Query.Candidates
import RingScan.Proofs.Reader.Opening
import RingScan.Proofs.Plan.Agreement
import RingScan.Proofs.Scan.Ledger
import RingScan.Proofs.Scan.Calls
import RingScan.Proofs.Scan.Registers
import RingScan.Proofs.Scan.Announcement
import RingScan.Proofs.Scan.Transcript
import RingScan.Proofs.Reader.Balance
import RingScan.Proofs.Reader.Lookup
import RingScan.Proofs.Reader.Projection
import RingScan.Proofs.Reader.Stream
import RingScan.Proofs.Cell.Codec
import RingScan.Proofs.Document.Roundtrip
import RingScan.Proofs.Key.Values
import RingScan.Proofs.Query.Sharing
import RingScan.Proofs.Ring.Cut
import RingScan.Proofs.Cluster.Nearest
import RingScan.Proofs.Row.Ending
import RingScan.Proofs.Scan.Laziness
import RingScan.Proofs.Reader.FirstFailure
import RingScan.Proofs.Text.Numeral
import RingScan.Proofs.Ring.Reading
import RingScan.Proofs.Plan.Bounds
import RingScan.Proofs.Text.Quoted
import RingScan.Proofs.Text.Case
import RingScan.Proofs.Cluster.Locality
import RingScan.Proofs.Hash.Separation
