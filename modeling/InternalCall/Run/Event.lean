import InternalCall.Managed.Context
import InternalCall.Table.Error
import InternalCall.Value

/-!
# Events and endings

Everything that can be observed of a run besides its result: what was logged,
which natives were called with which arguments, and each use of the managed
context. A run that gives no result ends in one of three other ways, which are
kept apart: a panic unwinds and may be caught, an abort ends the process, and a
run that nests dispatches deeper than its allowance is cut short.
-/

namespace InternalCall

/-- The severity of a log record. -/
inductive LogLevel where
  /-- Something that the process cannot survive. -/
  | error
  /-- Something that should not have happened. -/
  | warn
  /-- A step of starting up. -/
  | debug
  /-- A single call. -/
  | trace
deriving DecidableEq, Repr, Inhabited

/-- The name of the severity in a log. -/
def LogLevel.name : LogLevel → String
  | error => "ERROR"
  | warn => "WARN"
  | debug => "DEBUG"
  | trace => "TRACE"

/-- One thing that was observed. -/
inductive Event where
  /-- A log record. -/
  | log (level : LogLevel) (message : String)
  /-- A native routine was called with the arguments. -/
  | call (routine : String) (args : List Value)
  /-- A handle frame was opened. -/
  | push (mark : FrameMark)
  /-- The handle frames down to the mark were released. -/
  | pop (mark : FrameMark)
  /-- An error was recorded as pending. -/
  | setPending (e : ManagedError)
  /-- The slot for the pending error was emptied; this is what it held. -/
  | takePending (found : Option ManagedError)
deriving DecidableEq, Repr

/-- An error that the process cannot go on past. -/
inductive FatalError where
  /-- A live call site names a token that the table lacks. -/
  | notFound (e : NotFound)
  /-- The table that the process needs cannot be built or installed. -/
  | build (e : BuildError)
deriving DecidableEq, Repr

/-- The error in words, as it is logged before the process stops. -/
def FatalError.message : FatalError → String
  | notFound e => "fatal icall error: " ++ e.message
  | build e => "fatal icall error: " ++ e.message

/-- What a panic is about. -/
inductive Panic where
  /-- A native routine panicked with the message. -/
  | native (message : String)
  /-- The managed context could not open a frame and panicked with the message. -/
  | context (message : String)
  /-- A fatal error was escalated as a panic. -/
  | fatal (e : FatalError)
  /-- An argument was written to, or read from, a slot that a call does not have. -/
  | slotOverrun (index : Nat)
  /-- A managed routine was reached on the path for scalar routines. -/
  | managedOnScalarPath
deriving DecidableEq, Repr

/-- The message that the panic carries. -/
def Panic.message : Panic → String
  | native message | context message => message
  | fatal e => e.message
  | slotOverrun index => s!"argument slot {index} is out of range"
  | managedOnScalarPath =>
    "managed entries are rejected for the raw convention at construction"

/-- How a run ends. -/
inductive Ending (α : Type) where
  /-- With a result. -/
  | returned (a : α)
  /-- By a panic that nobody caught. -/
  | panicked (p : Panic)
  /-- By the end of the process. -/
  | aborted (e : FatalError)
  /-- Cut short, because dispatches were nested deeper than allowed. -/
  | exhausted
deriving DecidableEq, Repr

end InternalCall
