import WorkQueue.Accounts.Store
import WorkQueue.Error
import WorkQueue.Mail.Outbox
import WorkQueue.Task.Basic

/-!
# Procedures

Code that works with a clock, a store, a mailer and a broker is written as a procedure: a tree of
requests, each followed by a procedure for every answer.  A procedure says nothing about how its
requests are answered, how long that takes, or which of them fail.
-/

namespace WorkQueue

/-- What a handler is told about a delivery. -/
structure Delivery where
  taskId : String
  kind : String
  /-- The number of the attempt, counted from one. -/
  attempt : Nat
  deriving DecidableEq

/-- The delivery of a task. -/
def Delivery.ofTask (task : Task) : Delivery :=
  ⟨task.id, task.kind, task.attempt⟩

/-- What a procedure asks of its surroundings. -/
inductive Request where
  /-- Noting a delivery of a task, for the number of deliveries of this task and type before. -/
  | visit (delivery : Delivery) (task : Task)
  /-- The time. -/
  | clock
  /-- A new random id. -/
  | freshId
  /-- A random secret of a length. -/
  | secret (length : Nat)
  /-- Whether the procedure is to stop. -/
  | cancelled
  /-- Some milliseconds of waiting. -/
  | pause (millis : Nat)
  /-- Some milliseconds of computing, in which the procedure cannot be stopped. -/
  | compute (millis : Nat)
  /-- Waiting until the procedure is to stop. -/
  | awaitCancel
  /-- An account by name. -/
  | getUser (username : String)
  /-- A new account. -/
  | createUser (params : NewUser)
  /-- A new verification record. -/
  | createVerifyEmail (params : NewVerifyEmail)
  /-- The use of a verification record. -/
  | verifyEmail (id : Int) (secretCode : String)
  /-- Putting a task into its queue. -/
  | enqueue (task : Task)
  /-- Sending a message. -/
  | send (email : OutgoingEmail)

/-- The answers to a request. -/
def Request.Answer : Request → Type
  | visit _ _ => Nat
  | clock => Instant
  | freshId => String
  | secret _ => String
  | cancelled => Bool
  | pause _ => Unit
  | compute _ => Unit
  | awaitCancel => Unit
  | getUser _ => Except StoreError User
  | createUser _ => Except StoreError User
  | createVerifyEmail _ => Except StoreError VerifyEmail
  | verifyEmail _ _ => Except StoreError User
  | enqueue _ => Except QueueError Unit
  | send _ => Except MailError Unit

/-- A tree of requests that ends in results of one type or in a crash. -/
inductive Procedure (α : Type) : Type where
  | done (result : α)
  | crash (message : String)
  | ask (request : Request) (next : request.Answer → Procedure α)

namespace Procedure

/-- A procedure followed by another that takes its result. -/
def bind {α β : Type} : Procedure α → (α → Procedure β) → Procedure β
  | done result, next => next result
  | crash message, _ => crash message
  | ask request rest, next => ask request fun answer => (rest answer).bind next

instance : Monad Procedure where
  pure := done
  bind := bind

/-- The procedure of one request. -/
def request (r : Request) : Procedure r.Answer :=
  ask r done

end Procedure

/-- Code that executes the tasks of one type. -/
abbrev Handler := Delivery → Task → Procedure (Except HandlerError Unit)

end WorkQueue
