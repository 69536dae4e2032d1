import ChainIndex.Message

/-!
# A schedule

A schedule holds jobs, each a message that goes out again and again.  Time goes on in
ticks.  At a tick every job that is due is put off by its interval, and those of them
that do not wait for the reply to their last message send one (`Schedule.due`).

A job keeps the key that it got when it was made.  So the reply to a job that was
replaced meanwhile does not count for the one that replaced it.
-/

namespace ChainIndex

/-- A job of a schedule. -/
structure Job where
  /-- The number of the job, which no other one ever has. -/
  key : Nat
  /-- Its name, which no other one of the schedule has. -/
  id : String
  /-- The least time between two messages, in milliseconds. -/
  interval : Nat
  /-- The service that gets the message. -/
  service : String
  /-- What the message asks for. -/
  command : Command
  /-- When it is due next. -/
  next : Nat
  /-- It waits for a reply. -/
  inFlight : Bool := false
deriving Repr, Inhabited

/-- Jobs and the clock that drives them. -/
structure Schedule where
  /-- The time between two ticks, in milliseconds. -/
  tick : Nat
  /-- The jobs in order. -/
  jobs : List Job := []
  /-- The jobs made so far. -/
  issued : Nat := 0
  /-- The ticks have been started. -/
  started : Bool := false
  /-- The ticks have been stopped for good. -/
  stopped : Bool := false
deriving Repr, Inhabited

namespace Schedule

/-- The name of the scheduler on the bus. -/
def serviceName : String := "Scheduler"

/-- The least time between two ticks. -/
def minTick : Nat := 250

/-- The greatest time between two ticks. -/
def maxTick : Nat := 60000

/-- A schedule without jobs.  The tick is moved within its bounds. -/
def ofTick (tick : Nat) : Schedule := { tick := min (max tick minTick) maxTick }

/-- The ticks go on. -/
def isRunning (s : Schedule) : Bool := s.started && !s.stopped

/-- Remove the job with a name, and whether there was one. -/
def removeJob (s : Schedule) (id : String) : Bool × Schedule :=
  (s.jobs.any fun j => j.id == id, { s with jobs := s.jobs.filter fun j => j.id != id })

/-- A job, made now and due at once, in place of the one with its name. -/
def addJob (s : Schedule) (now : Nat) (id : String) (interval : Nat) (service : String)
    (command : Command) : Schedule :=
  let s := (s.removeJob id).2
  let job : Job := ⟨s.issued, id, interval, service, command, now, false⟩
  { s with jobs := s.jobs ++ [job], issued := s.issued + 1 }

/-- A job is due. -/
def isDue (now : Nat) (j : Job) : Bool := j.next ≤ now

/-- A job after a tick: if it is due, it is put off and waits for a reply. -/
def afterTick (now : Nat) (j : Job) : Job :=
  if isDue now j then { j with next := now + j.interval, inFlight := true } else j

/-- A tick: the jobs that send their message now. -/
def due (s : Schedule) (now : Nat) : List Job × Schedule :=
  ((s.jobs.filter fun j => isDue now j && !j.inFlight).map (afterTick now),
    { s with jobs := s.jobs.map (afterTick now) })

/-- The message of a job was answered, or dropped. -/
def settle (s : Schedule) (key : Nat) : Schedule :=
  { s with jobs := s.jobs.map fun j => if j.key = key then { j with inFlight := false } else j }

/-- Start the ticks. -/
def start (s : Schedule) : Schedule := { s with started := true }

/-- Stop the ticks. -/
def stop (s : Schedule) : Schedule := { s with stopped := true }

/-- A scale call.  There is one clock, so that only zero means something. -/
def setWorkers (s : Schedule) (count : UInt16) : Schedule := if count = 0 then s.stop else s

/-- A message to the scheduler itself, and its reply. -/
def execute (s : Schedule) (command : Command) : Reply × Schedule :=
  match command with
  | .exit => (.ack, s.stop)
  | other => (.rejected ("scheduler does not handle '" ++ other.name ++ "'"), s)

end Schedule

end ChainIndex
