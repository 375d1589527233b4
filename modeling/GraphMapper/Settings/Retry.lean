import GraphMapper.Settings.Basic

/-!
When a failed unit of work is run again, and after which delay.

* `RetryPolicy`: the policy of a connection;
* `RetryPolicy.attempts`: how often a unit of work is run at most;
* `RetryPolicy.exponential`: the part of a delay that doubles with each attempt;
* `RetryPolicy.backoff?`: the whole delay, with its random part.

Delays are counted in nanoseconds.
-/

namespace GraphMapper

/-- The longest delay that can be expressed: 64 bits of seconds and a second's nanoseconds but one. -/
def longestDelay : Nat := Nat.pow 2 64 * Nat.pow 10 9 - 1

def nanosPerMilli : Nat := Nat.pow 10 6

structure RetryPolicy where
  enabled : Bool
  maxAttempts : Nat
  /-- First delay, in nanoseconds. -/
  baseDelay : Nat
deriving DecidableEq, Repr

namespace RetryPolicy

/-- The policy that settings ask for. -/
def ofSettings (s : RetrySettings) : RetryPolicy :=
  { enabled := s.enabled, maxAttempts := s.maxAttempts, baseDelay := s.delay * nanosPerMilli }

/-- The policy under which every unit of work is run once. -/
def disabled : RetryPolicy :=
  { ofSettings {} with enabled := false }

/-- How often a unit of work is run at most. -/
def attempts (p : RetryPolicy) : Nat :=
  if p.enabled then max p.maxAttempts 1 else 1

/-- The exponent of two beyond which delays do not grow. -/
def greatestExponent : Nat := 16

/-- The delay after the given failed attempt, counted from one, without its random part. -/
def exponential (p : RetryPolicy) (attempt : Nat) : Nat :=
  min (p.baseDelay * Nat.pow 2 (min (attempt - 1) greatestExponent)) longestDelay

/-- The greatest random part of a delay, in milliseconds, plus one. -/
def jitterBound (p : RetryPolicy) : Nat :=
  p.baseDelay / nanosPerMilli % Nat.pow 2 64

/-- The delay after a failed attempt with a random number of milliseconds added, unless it is too long
to be expressed. -/
def backoff? (p : RetryPolicy) (attempt jitter : Nat) : Option Nat :=
  let delay := p.exponential attempt + jitter * nanosPerMilli
  if delay ≤ longestDelay then some delay else none

end RetryPolicy

end GraphMapper
