import CommandFile.Main
import CommandFile.Proofs.Additions
import CommandFile.Proofs.Ascents
import CommandFile.Proofs.Carriers
import CommandFile.Proofs.Charges
import CommandFile.Proofs.Complaints
import CommandFile.Proofs.Delays
import CommandFile.Proofs.Deletions
import CommandFile.Proofs.Deliveries
import CommandFile.Proofs.Drains
import CommandFile.Proofs.Interleaving
import CommandFile.Proofs.Layers
import CommandFile.Proofs.Lines
import CommandFile.Proofs.Losses
import CommandFile.Proofs.Newcomers
import CommandFile.Proofs.OneShots
import CommandFile.Proofs.Rejection
import CommandFile.Proofs.Retrieval
import CommandFile.Proofs.RoundTrip
import CommandFile.Proofs.Savings
import CommandFile.Proofs.Stability
import CommandFile.Proofs.Starts
import CommandFile.Proofs.Stops
import CommandFile.Statement.Catalogue
