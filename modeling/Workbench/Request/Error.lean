/-
# Failures of requests

A request fails because a store call failed, because the stored objects are not as
they must be, or because what was asked for makes no sense. Callers mostly need the
category; the text says in addition what the program was doing.
-/

import Workbench.Layout
import Workbench.Store.Error
import Workbench.ViewTarget

namespace Workbench

/-- What a failure means for the caller. -/
inductive ErrorCategory where
  | notFound
  | deadlineExceeded
  | invariantViolation
  | invalidArgument
  | persistenceFailure
  deriving DecidableEq, Repr

/-- The name of a category. -/
def ErrorCategory.name : ErrorCategory → String
  | .notFound => "NotFound"
  | .deadlineExceeded => "DeadlineExceeded"
  | .invariantViolation => "InvariantViolation"
  | .invalidArgument => "InvalidArgument"
  | .persistenceFailure => "PersistenceFailure"

/-- The reasons for which a request fails. -/
inductive RequestError where
  /-- A store call failed in the course of an operation. -/
  | store (operation : String) (cause : StoreError)
  | invariantViolation (detail : String)
  | invalidLayout (cause : LayoutError)
  | invalidTarget (cause : ViewTargetError)
  deriving DecidableEq

namespace RequestError

/-- The category of an error. -/
def category : RequestError → ErrorCategory
  | .store _ cause =>
      match cause with
      | .notFound _ _ | .singletonMissing _ => .notFound
      | .deadlineExceeded => .deadlineExceeded
      | _ => .persistenceFailure
  | .invariantViolation _ | .invalidLayout _ => .invariantViolation
  | .invalidTarget _ => .invalidArgument

/-- The text of an error. -/
def message : RequestError → String
  | .store operation cause => "error " ++ operation ++ ": " ++ cause.message
  | .invariantViolation detail => detail
  | .invalidLayout cause => "invalid layout: " ++ cause.message
  | .invalidTarget cause => cause.message

/-- The text of the error, followed by the texts of its causes. -/
def chain (error : RequestError) : List String :=
  error.message ::
    match error with
    | .store _ cause => cause.chain
    | .invariantViolation _ => []
    | .invalidLayout cause => [cause.message]
    | .invalidTarget cause => cause.chain

end RequestError

end Workbench
