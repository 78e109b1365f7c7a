import Eveboros.Adapt.Transparency
import Eveboros.Background.Jobs
import Eveboros.Direct.Contracts
import Eveboros.Mio.Soundness
import Eveboros.Pargs.Panics
import Eveboros.Recycler.History
import Eveboros.Runs.Addresses
import Eveboros.Runs.Busy
import Eveboros.Runs.Deadlines
import Eveboros.Runs.Expectations
import Eveboros.Runs.IdleTurns
import Eveboros.Runs.Ios
import Eveboros.Runs.Lifecycle
import Eveboros.Runs.PollWait
import Eveboros.Runs.Readiness
import Eveboros.Runs.Requests
import Eveboros.Runs.StaleHandles
import Eveboros.Runs.Stopping
import Eveboros.Runs.Timeouts
import Eveboros.Signals.Children
import Eveboros.Signals.Dispatch
import Eveboros.Signals.FailedGather
import Eveboros.World.Broadcast
import Eveboros.World.Channels
