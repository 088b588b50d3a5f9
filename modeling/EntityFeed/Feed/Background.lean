import EntityFeed.Failure

/-! Rebuilds in the background: a worker runs one at a time, and at most one more waits for it. A
request that finds one waiting is covered by it, because that one will see all ids pending by
then. -/
namespace EntityFeed

inductive Worker where
  | idle
  | running
  /-- It broke off in the middle of a rebuild, and nobody has asked after it yet. -/
  | crashed
  | awaited
  deriving DecidableEq, Repr

structure Background where
  accepting : Bool := true
  /-- Whether a rebuild waits for the worker. -/
  waiting : Bool := false
  worker : Worker := .idle
  /-- Whether the handle to await the worker by is still there. -/
  handle : Bool := true
  deriving DecidableEq, Repr

inductive SchedulerFault where
  | shutDown
  | workerStopped
  | workerPanicked
  deriving DecidableEq, Repr

def SchedulerFault.causes : SchedulerFault → Causes
  | shutDown => ["scheduler has been shut down"]
  | workerStopped => ["rebuild worker has stopped"]
  | workerPanicked => ["rebuild worker panicked"]

namespace Background

def request (b : Background) : Except SchedulerFault Background :=
  if !b.accepting then .error .shutDown
  else if b.worker = .crashed then .error .workerStopped
  else .ok { b with waiting := true }

/-- The worker starts the rebuild that waits, if it can. -/
def start? (b : Background) : Option Background :=
  if b.worker = .idle ∧ b.waiting then some { b with waiting := false, worker := .running }
  else none

/-- The running rebuild ends, whether it failed or not. -/
def finish (b : Background) : Background :=
  if b.worker = .running then { b with worker := .idle } else b

/-- The running rebuild breaks off. What waits behind it is lost with the worker. -/
def crash (b : Background) : Background :=
  if b.worker = .running then { b with waiting := false, worker := .crashed } else b

/-- A shutdown begins: it takes the sender away. -/
def close (b : Background) : Background := { b with accepting := false }

/-- Then it takes the handle of the worker. Only one shutdown gets it, and another one has nothing to
await. -/
def take? (b : Background) : Option Background :=
  if b.handle then some { b with handle := false } else none

/-- Whether the worker has nothing left to do and will get nothing more. -/
def ended (b : Background) : Bool := !b.accepting && !b.waiting && b.worker != .running

/-- What awaiting the end of the worker gives, once it has come. The crash of a worker is told
once. -/
def await (b : Background) : Except SchedulerFault Unit × Background :=
  (if b.worker = .crashed then .error .workerPanicked else .ok (), { b with worker := .awaited })

end Background
end EntityFeed
