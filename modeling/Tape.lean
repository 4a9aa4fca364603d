import Tape.Delta.Replica
import Tape.Link.Counter
import Tape.Link.Frames
import Tape.Main
import Tape.Proofs.Binary64.Order
import Tape.Proofs.Market.Canonical
import Tape.Proofs.Delta.Convergence
import Tape.Proofs.Json.Names
import Tape.Proofs.Schema.Plain
import Tape.Proofs.Book.Side
import Tape.Proofs.Wire.Batch
import Tape.Proofs.Wire.Run
import Tape.Proofs.Wire.Reconstruction
import Tape.Proofs.Wire.Atomic
import Tape.Proofs.Binary64.Arithmetic
import Tape.Proofs.Decimal.Binary
import Tape.Proofs.Wire.Output
import Tape.Proofs.Market.Best
import Tape.Proofs.Book.Depth
import Tape.Proofs.Feed.Reaction
import Tape.Proofs.Feed.Tally
import Tape.Proofs.Feed.Account
import Tape.Proofs.Feed.Steps
import Tape.Proofs.Feed.Reports
import Tape.Proofs.Feed.Figures
import Tape.Proofs.Wire.Naming
import Tape.Proofs.Feed.Numbering
import Tape.Proofs.Feed.Restart
import Tape.Proofs.Feed.Calls
import Tape.Proofs.Wire.Shapes
import Tape.Proofs.Feed.Separation
import Tape.Proofs.Bus.Framing
import Tape.Proofs.Feed.Readable
import Tape.Proofs.Hub.Lifecycle
import Tape.Proofs.Hub.Isolation
import Tape.Proofs.Hub.Reopening
import Tape.Proofs.Hub.Sequences
import Tape.Proofs.Hub.Closing
import Tape.Proofs.Link.Sockets
import Tape.Proofs.Market.LastWrites
import Tape.Proofs.Book.Whole
import Tape.Proofs.Bus.Delivery
import Tape.Proofs.Bus.Gaps
import Tape.Proofs.Feed.Starting
import Tape.Proofs.Wire.Agreement
import Tape.Proofs.Delta.Differences
import Tape.Proofs.Delta.Checkpoints
import Tape.Proofs.Book.Merging
import Tape.Proofs.Wire.Malformed
import Tape.Proofs.Link.Recovery
import Tape.Proofs.Link.Reading
import Tape.Proofs.Book.Removal
import Tape.Proofs.Wire.PriceForms
import Tape.Proofs.Stats.Moments
import Tape.Proofs.Stats.Flow
import Tape.Proofs.Stats.Bounds
import Tape.Proofs.Link.Waiting
import Tape.Proofs.Hub.Registration
import Tape.Proofs.Wire.Requests
import Tape.Proofs.Wire.Markets
import Tape.Proofs.Wire.Addresses
import Tape.Proofs.Wire.Quotes
import Tape.Proofs.Link.Counting
import Tape.Proofs.Hub.Windows
