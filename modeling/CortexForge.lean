import CortexForge.Foundation.Machine
import CortexForge.Foundation.Simulation
import CortexForge.Foundation.Layout
import CortexForge.Foundation.Partition
import CortexForge.Foundation.Clock
import CortexForge.Foundation.Ring
import CortexForge.Foundation.ListOps
import CortexForge.Foundation.Progress
import CortexForge.Foundation.Mutex
import CortexForge.Foundation.Resource
import CortexForge.Driver.Types
import CortexForge.Driver.Uapi
import CortexForge.Driver.Compat
import CortexForge.Driver.TaskManager
import CortexForge.Driver.AccelManager
import CortexForge.Driver.Pool
import CortexForge.Driver.FreeList
import CortexForge.Driver.Probe
import CortexForge.Driver.Glue
import CortexForge.Driver.Holding
import CortexForge.Driver.Files
import CortexForge.Driver.Irq
import CortexForge.Driver.Chardev
import CortexForge.Driver.Replies
import CortexForge.Library.Wrappers
import CortexForge.Concurrent.Action
import CortexForge.Concurrent.Client
import CortexForge.Concurrent.Worker
import CortexForge.Concurrent.System
import CortexForge.Concurrent.Lifecycle
import CortexForge.Concurrent.Threads
import CortexForge.Concurrent.Refinement
import CortexForge.Concurrent.Solo
import CortexForge.Concurrent.Placement
import CortexForge.Concurrent.Identity
import CortexForge.Concurrent.Fifo
import CortexForge.Concurrent.Lookup
import CortexForge.Concurrent.Capacity
import CortexForge.Concurrent.Status
import CortexForge.Concurrent.Cancellation
import CortexForge.Concurrent.Uncancelled
import CortexForge.Concurrent.Timing
import CortexForge.Concurrent.Occupancy
import CortexForge.Concurrent.Timeout
import CortexForge.Concurrent.Results
import CortexForge.Concurrent.Settling
import CortexForge.Concurrent.Stopping
import CortexForge.Concurrent.Shutdown
import CortexForge.Concurrent.Load
import CortexForge.Concurrent.LastTask
import CortexForge.Concurrent.Wakeup
import CortexForge.Concurrent.Progress
import CortexForge.Concurrent.Service
import CortexForge.Concurrent.Renaming
import CortexForge.Concurrent.Mirror
import CortexForge.Concurrent.Serial
import CortexForge.Concurrent.Observers
import CortexForge.Concurrent.Independence
import CortexForge.Concurrent.Locked
import CortexForge.Concurrent.Sections
import CortexForge.Concurrent.Realization
import CortexForge.Concurrent.ClientSections
import CortexForge.Concurrent.WorkerSections
import CortexForge.Concurrent.Atomicity
import CortexForge.Concurrent.Release
import CortexForge.Concurrent.Waiting
import CortexForge.Concurrent.Charges
import CortexForge.Concurrent.Liveness
