import UserSpaceThreads.Permits
import UserSpaceThreads.Specs
import UserSpaceThreads.LockSpecs
import UserSpaceThreads.CallSpecs
import UserSpaceThreads.DeathSpecs
import UserSpaceThreads.Refine
import UserSpaceThreads.Life
import UserSpaceThreads.Ready
import UserSpaceThreads.Discipline
import UserSpaceThreads.Wakeups
import UserSpaceThreads.Waits
import UserSpaceThreads.Waiters
import UserSpaceThreads.Pointers
import UserSpaceThreads.Locks
import UserSpaceThreads.Accounting
import UserSpaceThreads.Owners
import UserSpaceThreads.Sleepers
import UserSpaceThreads.Allocator
import UserSpaceThreads.ExitCodes
import UserSpaceThreads.Failures
import UserSpaceThreads.Overtaking
import UserSpaceThreads.WakeOrder
import UserSpaceThreads.Blocks
import UserSpaceThreads.Frees
import UserSpaceThreads.Lib.Logged
import UserSpaceThreads.Monitor
import UserSpaceThreads.Interrupts
import UserSpaceThreads.Exits
import UserSpaceThreads.CondVars
import UserSpaceThreads.Lib.BoundedDeque
import UserSpaceThreads.QueueCalls
import UserSpaceThreads.Effects
import UserSpaceThreads.LostWakeups
import UserSpaceThreads.MallocMap
import UserSpaceThreads.ClientContract
