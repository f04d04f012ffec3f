import RbacManifest.Failure

/-!
# Results with a log

What happens on the way to a result is logged. The log is kept beside the result, also when the
result is a failure, and no result depends on it.
-/

namespace RbacManifest

/-- How important a record of the log is. -/
inductive LogLevel
  /-- Shown only on demand. -/
  | debug
  | info
  deriving DecidableEq, Repr

structure LogRecord where
  level : LogLevel
  message : String
  deriving DecidableEq, Repr

/-- A result or a failure, with the records that were logged on the way. -/
structure Logged (α : Type) where
  log : List LogRecord := []
  outcome : Except Failure α

namespace Logged

/-- A result without records. -/
def of {α : Type} (outcome : Except Failure α) : Logged α :=
  { outcome }

/-- A failure without records. -/
def fail {α : Type} (failure : Failure) : Logged α :=
  { outcome := .error failure }

def record (level : LogLevel) (message : String) : Logged Unit :=
  { log := [⟨level, message⟩], outcome := .ok () }

/-- A result that continues another one, unless that is a failure. -/
def andThen {α β : Type} (first : Logged α) (next : α → Logged β) : Logged β :=
  match first.outcome with
  | .ok value =>
      let second := next value
      { log := first.log ++ second.log, outcome := second.outcome }
  | .error failure => { log := first.log, outcome := .error failure }

instance : Monad Logged where
  pure value := { outcome := .ok value }
  bind := andThen

end Logged

end RbacManifest
