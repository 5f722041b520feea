import OrtSuperserve.Lib.Machine
import OrtSuperserve.Helpers
import OrtSuperserve.BatcherMoves
import OrtSuperserve.Accounting
import OrtSuperserve.Answers
import OrtSuperserve.Batches
import OrtSuperserve.Calls
import OrtSuperserve.Dispatch
import OrtSuperserve.Isolation
import OrtSuperserve.Modes
import OrtSuperserve.Attribution
import OrtSuperserve.Neighbour
import OrtSuperserve.Pool
import OrtSuperserve.Safety
import OrtSuperserve.SessionBuilder
import OrtSuperserve.Slicing
import OrtSuperserve.Serving
import OrtSuperserve.Scheduling
import OrtSuperserve.Tally
import OrtSuperserve.Waiting
import OrtSuperserve.Fairness
import OrtSuperserve.Transparency
import OrtSuperserve.Unserved
import OrtSuperserve.Operation
import OrtSuperserve.PoolSize
import OrtSuperserve.Cancellation
import OrtSuperserve.Backlog
import OrtSuperserve.Settings
import OrtSuperserve.Servable
