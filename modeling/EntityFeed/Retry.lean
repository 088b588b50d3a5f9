import EntityFeed.Failure

/-! Trying again after a failure, with a delay in between that doubles each time. Times are counted in
nanoseconds, and a sleep is taken to end exactly its delay later. -/
namespace EntityFeed

/-- One attempt at an operation: how long it takes and how it ends. -/
structure Attempt (α : Type) where
  duration : Nat := 0
  outcome : Except Causes α

structure RetryPolicy where
  maxRetries : Nat
  initialDelay : Nat

/-- The longest delay that can be told: a nanosecond less than `2 ^ 64` seconds. -/
def longestDelay : Nat := Nat.pow 2 64 * 1000000000 - 1

/-- How far the attempts have come. -/
structure RetryState where
  now : Nat := 0
  /-- What is waited after the next failure. -/
  delay : Nat
  lastError : Option Causes := none
  startTimes : List Nat := []
  waits : List Nat := []

/-- What happened: how the attempts ended, when each began, what was waited between them, and when all was
over. There is no result if the delay has become too long to be told. -/
structure RetryRun (α : Type) where
  result : Option (Except Causes α)
  startTimes : List Nat
  waits : List Nat
  endTime : Nat

namespace RetryState

/-- After an attempt of some duration. -/
def attempted (s : RetryState) (duration : Nat) : RetryState :=
  { s with now := s.now + duration, startTimes := s.startTimes ++ [s.now] }

def waited (s : RetryState) : RetryState :=
  { s with now := s.now + s.delay, waits := s.waits ++ [s.delay] }

def doubled? (s : RetryState) : Option RetryState :=
  if 2 * s.delay ≤ longestDelay then some { s with delay := 2 * s.delay } else none

def failed (s : RetryState) (e : Causes) : RetryState := { s with lastError := some e }

def ended {α : Type} (s : RetryState) (result : Option (Except Causes α)) : RetryRun α :=
  ⟨result, s.startTimes, s.waits, s.now⟩

end RetryState

namespace RetryPolicy

/-- What is said when there was no attempt. -/
def noAttempt : Causes := ["Operation failed after retries"]

/-- So many attempts from the `n`-th on. A failed one is followed by a delay if it may be retried. -/
def runFrom {α : Type} (p : RetryPolicy) (attempt : Nat → Attempt α) (s : RetryState) :
    Nat → Nat → RetryRun α
  | 0, _ => s.ended (some (.error (s.lastError.getD noAttempt)))
  | left + 1, n =>
    let s := s.attempted (attempt n).duration
    match (attempt n).outcome with
    | .ok v => s.ended (some (.ok v))
    | .error e =>
      if n < p.maxRetries then
        match s.waited.doubled? with
        | some s => runFrom p attempt (s.failed e) left (n + 1)
        | none => s.waited.ended none
      else runFrom p attempt (s.failed e) left (n + 1)

/-- Attempts an operation until it succeeds or no retry is left. -/
def run {α : Type} (p : RetryPolicy) (attempt : Nat → Attempt α) : RetryRun α :=
  p.runFrom attempt { delay := p.initialDelay } (p.maxRetries + 1) 0

example : ((⟨3, 100_000_000⟩ : RetryPolicy).run fun n =>
    ⟨0, if n < 2 then .error ["busy"] else .ok n⟩).startTimes = [0, 100_000_000, 300_000_000] := by
  decide

end RetryPolicy
end EntityFeed
