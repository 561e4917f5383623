/-
# Request contexts

A request runs under a context. The context has a deadline, which every store call
obeys, and may carry the journal of the request: the update records of the writes that
succeeded so far. Only appending to the journal is possible.

Time is counted in milliseconds from an arbitrary start.
-/

import Workbench.Update
import Workbench.Store.Error

namespace Workbench

/-- A point in time, in milliseconds. -/
abbrev Instant := Nat

/-- The deadline of a request, and its journal if it keeps one. -/
structure Context where
  deadline : Instant
  journal : Option UpdateBatch

namespace Context

/-- A context without a journal that ends a while after `now`. -/
def withTimeout (now : Instant) (timeout : UInt64) : Context := ⟨now + timeout.toNat, none⟩

/-- Attach an empty journal, unless there is a journal already. -/
def withJournal (context : Context) : Context :=
  { context with journal := some (context.journal.getD []) }

/-- Whether the context keeps a journal. -/
def hasJournal (context : Context) : Bool := context.journal.isSome

/-- The records so far; none without a journal. They stay in the journal. -/
def batch (context : Context) : UpdateBatch := context.journal.getD []

/-- Append a record, if there is a journal. -/
def record (context : Context) (entry : UpdateRecord) : Context :=
  { context with journal := context.journal.map (· ++ [entry]) }

/-- Whether the deadline has come. -/
def isExpired (context : Context) (now : Instant) : Bool := context.deadline ≤ now

/-- The time that is left, zero after the deadline. -/
def remaining (context : Context) (now : Instant) : Nat := context.deadline - now

/-- Refuse to go on once the deadline has come. -/
def checkDeadline (context : Context) (now : Instant) : Except StoreError Unit :=
  if context.isExpired now then .error .deadlineExceeded else .ok ()

/-- Bring the deadline forward to at most a while after `now`. It is never put off. -/
def narrow (context : Context) (now : Instant) (timeout : UInt64) : Context :=
  { context with deadline := min context.deadline (now + timeout.toNat) }

/-- Put a deadline in force. -/
def withDeadline (context : Context) (deadline : Instant) : Context := { context with deadline }

end Context

end Workbench
