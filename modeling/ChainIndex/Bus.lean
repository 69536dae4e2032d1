import ChainIndex.Message

/-!
# The bus

Messages to services go through one mailbox, and one dispatcher handles them in the
order in which they arrived.  A message to `Bus.controller` is handled by the
dispatcher itself: it scales a service or stops the bus.  Any other message is
forwarded to the service it names.

`Bus.take?` takes the next message and gives the calls that the dispatcher makes for
it, `Bus.finish` is what happens once these calls have returned.  Between the two the
dispatcher is busy and takes nothing else.  Both also give the outcomes that
callers learn of, each by the ticket that the caller has for its message.

* A message for a service that is not registered when it is handled is lost, and its
  caller learns that it was dropped.
* The first exit shuts every registered service down.  After that the bus has
  exited: what is still queued is dropped, callers that wait for room are refused,
  and so is every later message.
* A caller waits for room while `capacity` messages are queued.  Callers get in in the
  order in which they came.
-/

namespace ChainIndex

/-- A message on its way to a service. -/
structure Envelope where
  /-- The service it is for. -/
  service : String
  /-- What it asks for. -/
  command : Command
  /-- The ticket of a caller that waits for the reply. -/
  returns : Option Nat
deriving Repr, Inhabited

/-- What a caller learns. -/
inductive Outcome where
  /-- The reply. -/
  | replied (reply : Reply)
  /-- There will be no reply. -/
  | dropped
  /-- The message was not taken. -/
  | refused
deriving Repr, Inhabited

/-- A call that the dispatcher makes to a service. -/
inductive ServiceCall where
  /-- It forwards a message. -/
  | execute (e : Envelope)
  /-- It scales a service. -/
  | scale (service : String) (count : UInt16)
  /-- It shuts a service down. -/
  | shutdown (service : String)
deriving Repr, Inhabited

/-- What the dispatcher is on. -/
inductive Desk where
  /-- Nothing. -/
  | free
  /-- A call, after which one caller is told that it is done. -/
  | calling (returns : Option Nat)
  /-- Shutting all services down, after which one caller is told that it is done. -/
  | stopping (returns : Option Nat)
deriving DecidableEq, Repr, Inhabited

/-- A mailbox, its dispatcher and the registered services. -/
structure Bus where
  /-- The most messages of the mailbox. -/
  capacity : Nat := 1024
  /-- The registered services, oldest first. -/
  services : List String := []
  /-- The messages, the next one first. -/
  mailbox : List Envelope := []
  /-- The callers that wait for room by ticket, the next one first. -/
  senders : List (Nat × Envelope) := []
  /-- The dispatcher was started. -/
  running : Bool := false
  /-- What the dispatcher is on. -/
  desk : Desk := .free
  /-- The bus has exited. -/
  exited : Bool := false
deriving Repr, Inhabited

namespace Bus

/-- The name of the dispatcher itself. -/
def controller : String := "Controller"

/-- A service is registered. -/
def isRegistered (b : Bus) (service : String) : Bool := b.services.contains service

/-- Register a service under a free name. -/
def register (b : Bus) (service : String) : Except BusFault Bus :=
  if b.isRegistered service then .error (.duplicateService service)
  else .ok { b with services := b.services ++ [service] }

/-! ## Callers -/

/-- Callers get in while there is room. -/
def letIn (b : Bus) : Bus :=
  let room := b.capacity - b.mailbox.length
  { b with
    mailbox := b.mailbox ++ (b.senders.take room).map (·.2)
    senders := b.senders.drop room }

/-- A caller brings a message: it gets in or waits for room.  None where the bus has
exited. -/
def post? (b : Bus) (ticket : Nat) (e : Envelope) : Option Bus :=
  if b.exited then none else some { b with senders := b.senders ++ [(ticket, e)] }.letIn

/-- A caller waits for room. -/
def isSending (b : Bus) (ticket : Nat) : Bool := b.senders.any fun s => s.1 = ticket

/-- A caller no longer waits for room. -/
def cancel (b : Bus) (ticket : Nat) : Bus :=
  { b with senders := b.senders.filter fun s => s.1 ≠ ticket }

/-! ## The dispatcher -/

/-- A reply for the caller that waits for one. -/
def answer (returns : Option Nat) (outcome : Outcome) : List (Nat × Outcome) :=
  returns.toList.map fun ticket => (ticket, outcome)

/-- What the dispatcher does about a message: the calls it makes, what callers learn
at once, and what it is on then. -/
def handle (b : Bus) (e : Envelope) : List ServiceCall × List (Nat × Outcome) × Desk :=
  if e.service = controller then
    match e.command with
    | .setWorkers service count =>
      if b.isRegistered service then ([.scale service count], [], .calling e.returns)
      else
        ([], answer e.returns (.replied (.rejected (BusFault.unknownService service).message)), .free)
    | .exit => (b.services.map .shutdown, [], .stopping e.returns)
    | other =>
      ([], answer e.returns
        (.replied (.rejected ("controller does not handle '" ++ other.name ++ "'"))), .free)
  else if b.isRegistered e.service then ([.execute e], [], .calling none)
  else ([], answer e.returns .dropped, .free)

/-- The dispatcher takes the next message. -/
def take? (b : Bus) : Option (List ServiceCall × List (Nat × Outcome) × Bus) :=
  if b.running && !b.exited && b.desk = .free then
    match b.mailbox with
    | [] => none
    | e :: rest =>
      let (calls, outcomes, desk) := b.handle e
      some (calls, outcomes, { b with mailbox := rest, desk := desk }.letIn)
  else none

/-- The calls of the dispatcher have returned. -/
def finish (b : Bus) : List (Nat × Outcome) × Bus :=
  match b.desk with
  | .free => ([], b)
  | .calling returns => (answer returns (.replied .ack), { b with desk := .free })
  | .stopping returns =>
    (answer returns (.replied .ack)
      ++ b.mailbox.flatMap (fun e => answer e.returns .dropped)
      ++ b.senders.map (fun s => (s.1, .refused)),
      { b with desk := .free, mailbox := [], senders := [], exited := true })

end Bus

end ChainIndex
