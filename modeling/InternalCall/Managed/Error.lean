/-!
# Managed errors

An exception of the managed world, raised by a native routine. Calls carry it to
the caller as it is and never look into it.
-/

namespace InternalCall

/-- A managed exception. -/
structure ManagedError where
  /-- The name of the exception class. -/
  kind : String
  /-- The message for people. -/
  message : String
deriving DecidableEq, Repr, Inhabited

namespace ManagedError

/-- The exception for an argument that a routine cannot take. -/
def argument (message : String) : ManagedError := ⟨"System.ArgumentException", message⟩

/-- The exception for a missing object. -/
def nullReference (message : String) : ManagedError := ⟨"System.NullReferenceException", message⟩

/-- The exception that a bare message stands for. -/
def ofMessage (message : String) : ManagedError := ⟨"System.Exception", message⟩

/-- The class and the message, as shown to people. -/
def text (e : ManagedError) : String := e.kind ++ ": " ++ e.message

end ManagedError

end InternalCall
