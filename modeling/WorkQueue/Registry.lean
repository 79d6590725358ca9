import WorkQueue.Text.Quoted
import WorkQueue.Verification.Handler

/-!
# Registry of handlers

A registry says which handler executes the tasks of a type.  Handlers are registered one by one, and
no type twice.  `ofDeployment` has a handler for every kind of task that this library knows.
-/

namespace WorkQueue

/-- The handlers by the types of their tasks. -/
structure Registry where
  handlers : Table Handler

namespace Registry

/-- A registry without handlers. -/
def empty : Registry := ⟨[]⟩

/-- Adds the handler of a type that has none. -/
def register (registry : Registry) (kind : String) (handler : Handler) :
    Except QueueError Registry :=
  if Table.has kind registry.handlers then .error (.duplicateHandler kind)
  else .ok ⟨Table.put kind handler registry.handlers⟩

/-- The handler of a type. -/
def resolve? (registry : Registry) (kind : String) : Option Handler :=
  Table.get? kind registry.handlers

/-- Whether a type has a handler. -/
def contains (registry : Registry) (kind : String) : Bool :=
  Table.has kind registry.handlers

/-- The types that have a handler, in order. -/
def kinds (registry : Registry) : List String :=
  Table.names registry.handlers

/-- How many types have a handler. -/
def size (registry : Registry) : Nat :=
  registry.handlers.length

/-- Whether no type has a handler. -/
def isEmpty (registry : Registry) : Bool :=
  registry.handlers.isEmpty

/-- A registry in words. -/
def describe (registry : Registry) : String :=
  "HandlerRegistry \x7b task_types: " ++ Text.quoteList registry.kinds ++ " \x7d"

end Registry

/-- The kinds of tasks that a deployment knows. -/
inductive KnownTask where
  /-- Mails a verification link to a new account. -/
  | sendVerifyEmail
  deriving DecidableEq

namespace KnownTask

/-- Every known kind. -/
def all : List KnownTask := [.sendVerifyEmail]

/-- The type of the tasks of a kind. -/
def kind : KnownTask → String
  | .sendVerifyEmail => Verification.taskKind

/-- The kind with a type. -/
def ofKind? (name : String) : Option KnownTask :=
  all.find? fun known => known.kind == name

/-- The handler of a kind. -/
def handler (baseUrl : String) : KnownTask → Handler
  | .sendVerifyEmail => Verification.handler baseUrl

end KnownTask

/-- The registry of a deployment: a handler for every known kind. -/
def Registry.ofDeployment (baseUrl : String) : Except QueueError Registry :=
  KnownTask.all.foldlM (fun registry known => registry.register known.kind (known.handler baseUrl))
    Registry.empty

end WorkQueue
