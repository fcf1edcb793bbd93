import PushMesh.Number.Binary64

/-!
# Growing delays

After each failure in a row the delay before the next attempt grows by a factor, up to a greatest
delay. A delay is never shorter than a millisecond. The growth is computed in double precision, and
where it has no value the greatest delay stands.
-/

namespace PushMesh

/-- How delays grow. -/
structure BackoffConfig where
  /-- The milliseconds of the first delay. -/
  initial : Nat
  /-- The milliseconds of the greatest delay. -/
  greatest : Nat
  /-- The factor from each delay to the next. -/
  factor : Binary64

namespace BackoffConfig

/-- How delays grow where nothing else is configured. -/
def standard : BackoffConfig := ⟨200, 30000, .ofNat 2⟩

/-- The number of attempts after which delays grow no more. -/
def steepest : Nat := 32

/-- The delay after so many failures before this one. -/
def delay (c : BackoffConfig) (failures : Nat) : Nat :=
  let greatest := Binary64.ofNat c.greatest
  let grown := .ofNat c.initial * c.factor.pow (min failures steepest)
  max 1 ((grown.min greatest).toWord 64)

end BackoffConfig

/-- The delays handed out since the last success. -/
structure Backoff where
  config : BackoffConfig
  /-- The number of delays handed out since the last success. -/
  attempts : Nat

namespace Backoff

/-- No delay has been handed out yet. -/
def start (config : BackoffConfig) : Backoff := ⟨config, 0⟩

/-- The greatest number of attempts that is counted. -/
def countLimit : Nat := UInt32.size - 1

/-- Hands out the next delay. -/
def next (b : Backoff) : Backoff × Nat :=
  ({ b with attempts := min (b.attempts + 1) countLimit }, b.config.delay b.attempts)

/-- Starts over after a success. -/
def reset (b : Backoff) : Backoff := { b with attempts := 0 }

end Backoff

end PushMesh
