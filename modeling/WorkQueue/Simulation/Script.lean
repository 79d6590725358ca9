import WorkQueue.Procedure

/-!
# Scripted handlers

A handler that notes each delivery and then follows a script: the first delivery of a task takes the
first line, the second one the second, and all further ones the last.
-/

namespace WorkQueue

/-- What a line of a script ends with. -/
inductive ScriptAction where
  | succeed
  | retry (reason : String)
  | skipRetry (reason : String)
  | cancelled
  | crash (message : String)
  | awaitCancel
  deriving DecidableEq

/-- A line of a script: how long the handler waits first, and what it does then. -/
structure ScriptLine where
  pauseMs : Option Nat
  action : ScriptAction
  deriving DecidableEq

namespace ScriptAction

/-- An action as a procedure. -/
def procedure : ScriptAction → Procedure (Except HandlerError Unit)
  | succeed => return .ok ()
  | retry reason => return .error (.retry reason)
  | skipRetry reason => return .error (.skipRetry reason)
  | cancelled => return .error .cancelled
  | crash message => .crash message
  | awaitCancel => do
    Procedure.request .awaitCancel
    return .error .cancelled

end ScriptAction

namespace ScriptLine

/-- A line as a procedure. -/
def procedure (line : ScriptLine) : Procedure (Except HandlerError Unit) := do
  match line.pauseMs with
  | some millis => Procedure.request (.pause millis)
  | none => pure ()
  line.action.procedure

/-- The handler that follows a script; an empty script always succeeds. -/
def handler (script : List ScriptLine) : Handler := fun delivery task => do
  let visits : Nat ← Procedure.request (.visit delivery task)
  match script[min visits (script.length - 1)]? with
  | some line => line.procedure
  | none => return .ok ()

end ScriptLine

end WorkQueue
