import LocalScheduler.Basic
import LocalScheduler.Dispatch
import LocalScheduler.Workers
import LocalScheduler.Tracker
import LocalScheduler.TrackerLoops
import LocalScheduler.Actors
import LocalScheduler.Events
import LocalScheduler.TrackerInvariant
import LocalScheduler.WorkerPool
import LocalScheduler.ActorQueue
import LocalScheduler.ActorOrder
import LocalScheduler.Wakeup
import LocalScheduler.Conservation
import LocalScheduler.TrackerLaws
import LocalScheduler.ActorNotifications
import LocalScheduler.TaskTable
import LocalScheduler.ObjectIndex
import LocalScheduler.Safety
import LocalScheduler.ObjectRequests
