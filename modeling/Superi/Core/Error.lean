import Superi.Lib.Result

/-!
# Error — classified errors with a context trail

The shape shared by every fallible operation of `superi-core`: a category, a recoverability class,
a message, and the context frames pushed while the error travels outward.  A frame is identified
by its component and operation; the diagnostic key/value fields attached to a frame are left out.
-/

namespace Superi
namespace Core

inductive ErrorCategory
  | invalidInput
  | notFound
  | conflict
  | unsupported
  | permissionDenied
  | resourceExhausted
  | unavailable
  | timeout
  | cancelled
  | corruptData
  | internal
  deriving DecidableEq, Repr

inductive Recoverability
  | retryable
  | degraded
  | userCorrectable
  | terminal
  deriving DecidableEq, Repr

structure ErrorContext where
  component : String
  operation : String
  deriving DecidableEq, Repr

structure Error where
  category : ErrorCategory
  recoverability : Recoverability
  message : String
  contexts : List ErrorContext
  deriving DecidableEq, Repr

namespace Error

def new (category : ErrorCategory) (recoverability : Recoverability) (message : String) : Error :=
  { category, recoverability, message, contexts := [] }

/-- Add one context frame behind those already present. -/
def withContext (error : Error) (context : ErrorContext) : Error :=
  { error with contexts := error.contexts ++ [context] }

/-- The frame pushed where the error was raised. -/
def origin (error : Error) : Option ErrorContext :=
  error.contexts.head?

end Error

/-- Push a context frame onto the error of a failed computation. -/
def withErrorContext {α : Type} (result : Except Error α) (context : ErrorContext) :
    Except Error α :=
  result.mapError fun error => error.withContext context

theorem withErrorContext_eq_ok {α : Type} {x : Except Error α} {context : ErrorContext} {a : α} :
    withErrorContext x context = .ok a ↔ x = .ok a :=
  Result.mapError_eq_ok

end Core
end Superi
