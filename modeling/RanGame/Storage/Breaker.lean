import Mathlib.Data.Int.Notation
import Mathlib.Logic.Function.Basic

/-!
# The table breaker

`internal/storage/breaker.go`: a circuit breaker for each table, consulted by the asynchronous
writes of the store. A table is closed unless the map holds something else for it. Every method is
one critical section and takes the time as an argument.
-/

namespace RanGame.Storage

open Function

inductive BreakerState
  | breakerClosed
  | breakerOpen
  | breakerHalfOpen
  deriving DecidableEq, Repr

/-- The breakers of all tables. A table that is not in the source's maps is closed. -/
structure TableBreaker where
  states : String → BreakerState
  openAt : String → ℤ

namespace TableBreaker

def new : TableBreaker := ⟨fun _ => .breakerClosed, fun _ => 0⟩

variable (b : TableBreaker) (cooldown now : ℤ) (table : String)

/-- `Allow`: an open table becomes half open after its cooldown and lets this request through. -/
def allow : Bool × TableBreaker :=
  match b.states table with
  | .breakerClosed => (true, b)
  | .breakerHalfOpen => (false, b)
  | .breakerOpen =>
    if now - b.openAt table ≥ cooldown then
      (true, { b with states := update b.states table .breakerHalfOpen })
    else
      (false, b)

def trip : TableBreaker where
  states := update b.states table .breakerOpen
  openAt := update b.openAt table now

/-- A flush has failed: a half-open table opens again, a closed one stays closed. -/
def onFailure : TableBreaker :=
  if b.states table = .breakerHalfOpen then b.trip now table else b

/-- A write has succeeded: the table is removed from both maps. -/
def onSuccess : TableBreaker where
  states := update b.states table .breakerClosed
  openAt := update b.openAt table 0

end TableBreaker

end RanGame.Storage
