import Inlay.FileSystem.Edit
import Inlay.PatchSet.Encode
import Inlay.Proofs.Cut
import Inlay.Proofs.Idempotence
import Inlay.Proofs.Ending
import Inlay.Proofs.Effect
import Inlay.Proofs.Persistence
import Inlay.Proofs.Collection
import Inlay.Proofs.Quoting
import Inlay.Proofs.RoundTrip
import Inlay.Proofs.Resolution
import Inlay.Proofs.Loading
import Inlay.Proofs.Selection
import Inlay.Proofs.Visits
import Inlay.Proofs.Prediction
import Inlay.Proofs.Rest
import Inlay.Proofs.Convergence
import Inlay.Proofs.Completion
import Inlay.Proofs.Recovery
import Inlay.Proofs.WholeText
import Inlay.Proofs.Withdrawal
import Inlay.Proofs.Commutation
import Inlay.Proofs.LineEndings
import Inlay.Proofs.Exactness
import Inlay.Proofs.Independence
import Inlay.Proofs.Footprint
import Inlay.Proofs.Announcement
import Inlay.Proofs.Offences
import Inlay.Proofs.Transparency
import Inlay.Proofs.Aliases
import Inlay.Proofs.BlockText
import Inlay.Proofs.ExitCodes
import Inlay.Proofs.Listings
import Inlay.Proofs.DataModel
