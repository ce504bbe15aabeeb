import SaveSlots.Main
import SaveSlots.Store.Disk
import SaveSlots.Store.Memory
import SaveSlots.Work.Pool
import SaveSlots.Proofs.Callbacks
import SaveSlots.Proofs.Saved
import SaveSlots.Proofs.Atomic
import SaveSlots.Proofs.Cleared
import SaveSlots.Proofs.Captured
import SaveSlots.Proofs.Restored
import SaveSlots.Proofs.Dated
import SaveSlots.Proofs.Switched
import SaveSlots.Proofs.Interchange
import SaveSlots.Proofs.Exposed
import SaveSlots.Proofs.Fetched
import SaveSlots.Proofs.Arrived
import SaveSlots.Proofs.Observed
import SaveSlots.Proofs.Overwrites
import SaveSlots.Proofs.Classified
import SaveSlots.Proofs.Latents
import SaveSlots.Proofs.Timely
import SaveSlots.Proofs.Nesting
import SaveSlots.Proofs.Unseen
import SaveSlots.Proofs.Recaptured
import SaveSlots.Proofs.Delivered
import SaveSlots.Proofs.Ignored
import SaveSlots.Proofs.Spelled
import SaveSlots.Proofs.Listings
import SaveSlots.Proofs.Sorted
