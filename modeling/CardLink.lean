import CardLink.Options.Json
import CardLink.Backend.ScriptedCard
import CardLink.Backend.Loopback
import CardLink.Backend.TransactionMonitor
import CardLink.Backend.Playback
import CardLink.Backend.Traced
import CardLink.Backend.Observed
import CardLink.Session
import CardLink.Proofs.Courses
import CardLink.Proofs.Buffering
import CardLink.Proofs.Delivery
import CardLink.Proofs.Reception
import CardLink.Proofs.Restarts
import CardLink.Proofs.Transmission
import CardLink.Proofs.Patience
import CardLink.Proofs.Termination
import CardLink.Proofs.Failures
import CardLink.Proofs.Alternation
import CardLink.Proofs.Sessions
import CardLink.Proofs.Capacity
import CardLink.Proofs.Silencing
import CardLink.Proofs.Tenures
import CardLink.Proofs.Controls
import CardLink.Proofs.SentBlocks
import CardLink.Proofs.Waits
import CardLink.Proofs.Pauses
import CardLink.Proofs.BlockSizes
import CardLink.Proofs.Expectations
import CardLink.Proofs.Verdicts
import CardLink.Proofs.Transactions
import CardLink.Proofs.Idleness
import CardLink.Proofs.Echoes
import CardLink.Proofs.Decoding
import CardLink.Proofs.Links
import CardLink.Proofs.Pieces
import CardLink.Proofs.Accesses
import CardLink.Proofs.Persistence
