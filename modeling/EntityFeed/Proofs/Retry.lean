import EntityFeed.Retry
import Mathlib.Algebra.BigOperators.Group.Finset.Basic
import Mathlib.Algebra.Order.BigOperators.Group.Finset
import Mathlib.Tactic.Ring

/-! When the attempts at an operation begin and how they end, as long as the delay between them can be told. -/
namespace EntityFeed.RetryPolicy
open Finset

variable {α : Type} {p : RetryPolicy} {attempt : Nat → Attempt α} {k n : Nat}

/-- That the attempts end with the `k`-th: no earlier one succeeds, and it does or is the last that is
allowed. -/
structure EndsWith (p : RetryPolicy) (attempt : Nat → Attempt α) (k : Nat) : Prop where
  allowed : k ≤ p.maxRetries
  before : ∀ n < k, ∃ e, (attempt n).outcome = .error e
  final : (∃ v, (attempt k).outcome = .ok v) ∨ k = p.maxRetries

theorem exists_endsWith (p : RetryPolicy) (attempt : Nat → Attempt α) : ∃ k, p.EndsWith attempt k := by
  classical
  have last : ∃ k, (∃ v, (attempt k).outcome = .ok v) ∨ k = p.maxRetries := ⟨_, .inr rfl⟩
  refine ⟨Nat.find last, Nat.find_le (.inr rfl), fun n hn => ?_, Nat.find_spec last⟩
  cases out : (attempt n).outcome with
  | error e => exact ⟨e, rfl⟩
  | ok v => exact absurd (.inl ⟨v, out⟩) (Nat.find_min last hn)

theorem EndsWith.unique {j : Nat} (hj : p.EndsWith attempt j) (hk : p.EndsWith attempt k) : j = k := by
  -- An attempt before the last has failed, and it is not the last that is allowed.
  have notBefore {i l : Nat} (hi : p.EndsWith attempt i) (hl : p.EndsWith attempt l) : ¬i < l := by
    intro early
    obtain ⟨e, failed⟩ := hl.before i early
    rcases hi.final with ⟨v, ok⟩ | last
    · simp [ok] at failed
    · have := hl.allowed
      omega
  have := notBefore hj hk
  have := notBefore hk hj
  omega

/-- The time that the delays before the `n`-th attempt and the attempts themselves have taken. -/
def startTime (p : RetryPolicy) (attempt : Nat → Attempt α) (n : Nat) : Nat :=
  p.initialDelay * (2 ^ n - 1) + ∑ i ∈ range n, (attempt i).duration

theorem two_pow_succ_sub_one (n : Nat) : 2 ^ (n + 1) - 1 = (2 ^ n - 1) + 2 ^ n := by
  have := Nat.one_le_two_pow (n := n)
  omega

theorem startTime_succ (p : RetryPolicy) (attempt : Nat → Attempt α) (n : Nat) :
    p.startTime attempt (n + 1) =
      p.startTime attempt n + (attempt n).duration + p.initialDelay * 2 ^ n := by
  rw [startTime, startTime, two_pow_succ_sub_one, Nat.mul_add, sum_range_succ]
  omega

/-- What the attempt before the `n`-th has failed with. -/
def lastError (attempt : Nat → Attempt α) : Nat → Option Causes
  | 0 => none
  | n + 1 => match (attempt n).outcome with
    | .error e => some e
    | .ok _ => none

/-- Where the attempts stand before the `n`-th, if all until then have failed. -/
def stateBefore (p : RetryPolicy) (attempt : Nat → Attempt α) (n : Nat) : RetryState where
  now := p.startTime attempt n
  delay := p.initialDelay * 2 ^ n
  lastError := lastError attempt n
  startTimes := (List.range n).map (p.startTime attempt)
  waits := (List.range n).map (p.initialDelay * 2 ^ ·)

theorem stateBefore_zero (p : RetryPolicy) (attempt : Nat → Attempt α) :
    p.stateBefore attempt 0 = { delay := p.initialDelay } := by
  simp [stateBefore, startTime, lastError]

theorem two_mul_delay (d n : Nat) : 2 * (d * 2 ^ n) = d * 2 ^ (n + 1) := by
  ring

/-- The state after a failure that is waited for. -/
theorem doubled?_stateBefore {e : Causes} (failed : (attempt n).outcome = .error e)
    (fits : p.initialDelay * 2 ^ (n + 1) ≤ longestDelay) :
    (((p.stateBefore attempt n).attempted (attempt n).duration).waited.doubled?).map (·.failed e) =
      some (p.stateBefore attempt (n + 1)) := by
  simp only [RetryState.doubled?, RetryState.waited, RetryState.attempted, stateBefore, two_mul_delay,
    if_pos fits]
  simp [RetryState.failed, lastError, failed, startTime_succ, List.range_succ]

/-- A failure that may be retried. -/
theorem runFrom_failed {e : Causes} {left : Nat} (failed : (attempt n).outcome = .error e)
    (retry : n < p.maxRetries) (fits : p.initialDelay * 2 ^ (n + 1) ≤ longestDelay) :
    p.runFrom attempt (p.stateBefore attempt n) (left + 1) n =
      p.runFrom attempt (p.stateBefore attempt (n + 1)) left (n + 1) := by
  obtain ⟨s, doubled, next⟩ := Option.map_eq_some_iff.mp (doubled?_stateBefore failed fits)
  rw [runFrom]
  simp only [failed, if_pos retry, doubled, next]

theorem run_eq_runFrom (allowed : k ≤ p.maxRetries)
    (before : ∀ n < k, ∃ e, (attempt n).outcome = .error e)
    (fits : p.initialDelay * 2 ^ k ≤ longestDelay) :
    p.run attempt = p.runFrom attempt (p.stateBefore attempt k) (p.maxRetries + 1 - k) k := by
  induction k with
  | zero => rw [stateBefore_zero, run, Nat.sub_zero]
  | succ k ih =>
    obtain ⟨e, failed⟩ := before k k.lt_succ_self
    have grows : p.initialDelay * 2 ^ k ≤ p.initialDelay * 2 ^ (k + 1) :=
      Nat.mul_le_mul_left _ (Nat.pow_le_pow_right two_pos k.le_succ)
    have left : p.maxRetries + 1 - k = p.maxRetries + 1 - (k + 1) + 1 := by omega
    rw [ih (by omega) (fun n hn => before n (by omega)) (grows.trans fits), left,
      runFrom_failed failed (by omega) fits]

/-- The run whose last attempt is the `k`-th. -/
theorem run_eq (h : p.EndsWith attempt k) (fits : p.initialDelay * 2 ^ k ≤ longestDelay) :
    p.run attempt = ⟨some (attempt k).outcome, (List.range (k + 1)).map (p.startTime attempt),
      (List.range k).map (p.initialDelay * 2 ^ ·), p.startTime attempt k + (attempt k).duration⟩ := by
  have left : p.maxRetries + 1 - k = p.maxRetries - k + 1 := by have := h.allowed; omega
  rw [run_eq_runFrom h.allowed h.before fits, left, runFrom]
  cases out : (attempt k).outcome with
  | ok v => simp [RetryState.ended, RetryState.attempted, stateBefore, List.range_succ]
  | error e =>
    obtain rfl : k = p.maxRetries := by
      rcases h.final with ⟨v, ok⟩ | last
      · simp [ok] at out
      · exact last
    simp [runFrom, RetryState.ended, RetryState.attempted, RetryState.failed, stateBefore, List.range_succ]

theorem sum_waits (d k : Nat) : ((List.range k).map (d * 2 ^ ·)).sum = d * (2 ^ k - 1) := by
  induction k with
  | zero => rfl
  | succ k ih =>
    simp [List.range_succ, ih, two_pow_succ_sub_one, Nat.mul_add]

/-- A delay that has become too long ends the run in front of the attempt behind it. -/
theorem run_eq_of_overflow (allowed : k < p.maxRetries)
    (before : ∀ n ≤ k, ∃ e, (attempt n).outcome = .error e)
    (fits : p.initialDelay * 2 ^ k ≤ longestDelay)
    (beyond : longestDelay < p.initialDelay * 2 ^ (k + 1)) :
    p.run attempt = ⟨none, (List.range (k + 1)).map (p.startTime attempt),
      (List.range (k + 1)).map (p.initialDelay * 2 ^ ·), p.startTime attempt (k + 1)⟩ := by
  obtain ⟨e, failed⟩ := before k le_rfl
  have left : p.maxRetries + 1 - k = p.maxRetries - k + 1 := by omega
  rw [run_eq_runFrom allowed.le (fun n hn => before n hn.le) fits, left, runFrom]
  simp only [failed, if_pos allowed, RetryState.doubled?, RetryState.waited, RetryState.attempted,
    stateBefore, two_mul_delay, if_neg beyond.not_ge]
  simp [RetryState.ended, startTime_succ, List.range_succ]

/-- As long as the longest delay that may be needed can be told, an operation is attempted up to its first
success, or as often as is allowed if there is none. The `n`-th attempt begins when `n` delays, each twice
the one before, and the attempts before it are over; nothing is waited behind the last; and its outcome is
the result. A sleep is taken to end exactly its delay later. -/
theorem run_as_scheduled (p : RetryPolicy) (attempt : Nat → Attempt α)
    (fits : p.initialDelay * 2 ^ p.maxRetries ≤ longestDelay) :
    ∃ k, p.EndsWith attempt k ∧
      (p.run attempt).result = some (attempt k).outcome ∧
      (p.run attempt).startTimes = (List.range (k + 1)).map (fun n =>
        p.initialDelay * (2 ^ n - 1) + ∑ i ∈ range n, (attempt i).duration) ∧
      (p.run attempt).waits = (List.range k).map (fun n => p.initialDelay * 2 ^ n) ∧
      (p.run attempt).waits.sum = p.initialDelay * (2 ^ k - 1) ∧
      (p.run attempt).endTime =
        p.initialDelay * (2 ^ k - 1) + ∑ i ∈ range (k + 1), (attempt i).duration := by
  obtain ⟨k, ends⟩ := exists_endsWith p attempt
  have within : p.initialDelay * 2 ^ k ≤ p.initialDelay * 2 ^ p.maxRetries :=
    Nat.mul_le_mul_left _ (Nat.pow_le_pow_right two_pos ends.allowed)
  refine ⟨k, ends, ?_⟩
  rw [run_eq ends (within.trans fits)]
  refine ⟨rfl, rfl, rfl, sum_waits _ k, ?_⟩
  rw [startTime, sum_range_succ, Nat.add_assoc]

/-- An operation that fails twice, five milliseconds after it has begun. -/
def busyTwice (n : Nat) : Attempt Nat := ⟨5_000_000, if n < 2 then .error ["busy"] else .ok n⟩

/-- Three retries, the first of them after a tenth of a second. -/
def threeRetries : RetryPolicy := ⟨3, 100_000_000⟩

theorem endsWith_busyTwice : threeRetries.EndsWith busyTwice 2 where
  allowed := by decide
  before n hn := ⟨["busy"], by simp [busyTwice, hn]⟩
  final := .inl ⟨2, rfl⟩

/-- Where a sleep ends exactly its delay later, the attempts begin after 0, 105 and 310 milliseconds. -/
theorem busyTwice_as_scheduled : threeRetries.initialDelay * 2 ^ threeRetries.maxRetries ≤ longestDelay ∧
    (threeRetries.run busyTwice).result = some (.ok 2) ∧
    (threeRetries.run busyTwice).startTimes = [0, 105_000_000, 310_000_000] ∧
    (threeRetries.run busyTwice).waits = [100_000_000, 200_000_000] ∧
    (threeRetries.run busyTwice).endTime = 315_000_000 := by
  have fits : threeRetries.initialDelay * 2 ^ threeRetries.maxRetries ≤ longestDelay := by decide
  obtain ⟨k, ends, result, starts, waits, -, last⟩ := run_as_scheduled threeRetries busyTwice fits
  obtain rfl := ends.unique endsWith_busyTwice
  exact ⟨fits, result, starts, waits, last⟩

end EntityFeed.RetryPolicy
