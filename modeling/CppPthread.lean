import CppPthread.Basic.Run
import CppPthread.Basic.Ledger
import CppPthread.Basic.Fifo
import CppPthread.Basic.Tokens
import CppPthread.Basic.CInt
import CppPthread.Basic.Work
import CppPthread.Basic.Atomic
import CppPthread.Basic.Scopes
import CppPthread.Basic.LockOrder
import CppPthread.Basic.Parts
import CppPthread.Posix.Time
import CppPthread.Posix.Monitor
import CppPthread.Posix.Mutex
import CppPthread.Posix.RwLock
import CppPthread.Posix.TryLock
import CppPthread.Exceptions
import CppPthread.ConditionVariable.Deadline
import CppPthread.ConditionVariable.Milliseconds
import CppPthread.ConditionVariable.Machine
import CppPthread.ConditionVariable.Deadlines
import CppPthread.ConditionVariable.Loops
import CppPthread.ConditionVariable.Decides
import CppPthread.ConditionVariable.Contract
import CppPthread.Queue.SyncQueue
import CppPthread.Queue.Steps
import CppPthread.Queue.Wakeup
import CppPthread.Queue.Fifo
import CppPthread.Queue.LostWakeups
import CppPthread.Queue.Capacity
import CppPthread.Queue.MaxSize
import CppPthread.Queue.Deadlines
import CppPthread.Queue.WithoutLambda
import CppPthread.Queue.GiveUp
import CppPthread.Queue.Outcomes
import CppPthread.Queue.Work
import CppPthread.Queue.Settles
import CppPthread.Queue.Served
import CppPthread.Queue.Refinement
import CppPthread.Thread.Thread
import CppPthread.Thread.Sleep
import CppPthread.Thread.Pool
import CppPthread.Thread.StackSize
import CppPthread.Thread.Group
import CppPthread.Thread.Join
import CppPthread.Thread.Move
import CppPthread.Thread.Start
import CppPthread.Thread.Destructor
import CppPthread.Thread.Objects
import CppPthread.Thread.Lifetime
import CppPthread.Thread.Outlives
import CppPthread.Thread.SelfJoin
import CppPthread.ReadWriteLock.Guards
import CppPthread.Mutex.Guards
import CppPthread.Mutex.Calls
import CppPthread.What
import CppPthread.Resources
