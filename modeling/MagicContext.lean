import MagicContext.Kernel.Tokens
import MagicContext.Kernel.History
import MagicContext.Claims.Fence
import MagicContext.Claims.Drain
import MagicContext.Claims.Restate
import MagicContext.Claims.Locators
import MagicContext.Redaction.Whole
import MagicContext.Historian.Cuts
import MagicContext.Historian.Drains
import MagicContext.Host.Terminals
import MagicContext.Synapse.Accounting
import MagicContext.Notes.Offers
import MagicContext.Notes.Evaluated
import MagicContext.Kernel.Ingested
import MagicContext.Staging.PageInterleavings
import MagicContext.Staging.ImportInterleavings
import MagicContext.Staging.UploadInterleavings
import MagicContext.Wire.Reattach
import MagicContext.Ring.Removal
import MagicContext.Scheduler.Latch
import MagicContext.Ring.Releases
import MagicContext.Ring.Wakeups
import MagicContext.Claims.Canonical
import MagicContext.Selection.Adjacency
import MagicContext.Codec.PiIdentity
import MagicContext.Scheduler.Recovery
import MagicContext.Scope.Equivalence
import MagicContext.Scope.Exactness
import MagicContext.Boundary.OpenCalls
import MagicContext.Boundary.Wrapup
import MagicContext.Boundary.Estimate
import MagicContext.Render.ContentEpoch
import MagicContext.Wire.OutputCache
import MagicContext.Selection.OrderFree
import MagicContext.Kernel.Chain
import MagicContext.Applicability.Ancestry
import MagicContext.Transcripts.Eviction
import MagicContext.Render.Decay
import MagicContext.Applicability.Cache
import MagicContext.Wire.Footprint
