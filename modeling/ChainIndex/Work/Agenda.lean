/-!
# One task at a time

Tasks run one after the other.  A task runs until it has to wait, and tasks that can
run do so in the order in which they became ready.  The clock stands still while a
task can run.  When none can, it jumps to the next timer.  Timers that are due at the
same time fire in the order in which they were set.

`Agenda` keeps the clock, the ready tasks and the timers.  A `Machine` says what one
turn of a task does to a state that holds an agenda.  `Machine.settle` runs until no
task can, `Machine.advance` lets time pass, and `Machine.await` runs until an answer
is there.  A caller that waits for an answer looks for it after every
`Machine.turnLength` turns, or once no task can run.
-/

namespace ChainIndex

/-- The clock, the tasks that can run, and the timers. -/
structure Agenda (τ : Type) where
  /-- The time in milliseconds. -/
  now : Nat := 0
  /-- The tasks that can run, the next one first. -/
  ready : List τ := []
  /-- The tasks that sleep, by the time they wake, the next one first. -/
  timers : List (Nat × τ) := []
deriving Repr, Inhabited

namespace Agenda

variable {τ : Type} [BEq τ]

/-- A task can run, after those that already can. -/
def wake (a : Agenda τ) (task : τ) : Agenda τ :=
  if a.ready.contains task then a else { a with ready := a.ready ++ [task] }

/-- Tasks can run, one after the other. -/
def wakeAll (a : Agenda τ) (tasks : List τ) : Agenda τ := tasks.foldl wake a

/-- A task goes on before all others. -/
def wakeFirst (a : Agenda τ) (task : τ) : Agenda τ := { a with ready := task :: a.ready }

/-- A timer put behind those that are due no later. -/
def insertTimer (due : Nat) (task : τ) : List (Nat × τ) → List (Nat × τ)
  | [] => [(due, task)]
  | (d, t) :: rest => if due < d then (due, task) :: (d, t) :: rest else (d, t) :: insertTimer due task rest

/-- A task sleeps for some milliseconds. -/
def sleep (a : Agenda τ) (delay : Nat) (task : τ) : Agenda τ :=
  { a with timers := insertTimer (a.now + delay) task a.timers }

/-- The next task, and the agenda without it. -/
def next? (a : Agenda τ) : Option (τ × Agenda τ) :=
  match a.ready with
  | [] => none
  | task :: rest => some (task, { a with ready := rest })

/-- The agenda at the time of its next timers, which fire, if that time is no later
than `limit`. -/
def fire? (a : Agenda τ) (limit : Nat) : Option (Agenda τ) :=
  match a.timers with
  | [] => none
  | (due, _) :: _ =>
    if due ≤ limit then
      let later : Agenda τ :=
        { a with now := max a.now due, timers := a.timers.dropWhile fun t => t.1 = due }
      some (later.wakeAll ((a.timers.takeWhile fun t => t.1 = due).map (·.2)))
    else none

end Agenda

/-- What one turn of a task does. -/
structure Machine (ω τ : Type) where
  /-- The agenda of a state. -/
  agenda : ω → Agenda τ
  /-- A state with another agenda. -/
  withAgenda : Agenda τ → ω → ω
  /-- A task runs until it has to wait. -/
  run : τ → ω → ω

namespace Machine

variable {ω τ : Type} [BEq τ] (m : Machine ω τ)

/-- How many turns a waiting caller lets pass before it looks for its answer. -/
def turnLength : Nat := 61

/-- How long a caller waits for an answer, in milliseconds. -/
def patience : Nat := 3600000

/-- A bound on the steps of a run that is never reached. -/
def unbounded : Nat := Nat.pow 2 48

/-- The next task runs, if one can. -/
def step? (s : ω) : Option ω :=
  match (m.agenda s).next? with
  | none => none
  | some (task, agenda) => some (m.run task (m.withAgenda agenda s))

/-- Tasks run until none can. -/
def settleWithin : Nat → ω → ω
  | 0, s => s
  | fuel + 1, s =>
    match m.step? s with
    | none => s
    | some s => settleWithin fuel s

/-- Tasks run until none can. -/
def settle (s : ω) : ω := m.settleWithin unbounded s

/-- Tasks run and timers fire until `limit`. -/
def advanceWithin (limit : Nat) : Nat → ω → ω
  | 0, s => s
  | fuel + 1, s =>
    let s := m.settle s
    match (m.agenda s).fire? limit with
    | some agenda => advanceWithin limit fuel (m.withAgenda agenda s)
    | none => m.withAgenda { m.agenda s with now := max (m.agenda s).now limit } s

/-- Some milliseconds pass. -/
def advance (delay : Nat) (s : ω) : ω :=
  m.advanceWithin ((m.agenda s).now + delay) unbounded s

/-- At most so many turns, and whether a task can still run. -/
def turns : Nat → ω → Bool × ω
  | 0, s => (!(m.agenda s).ready.isEmpty, s)
  | n + 1, s =>
    match m.step? s with
    | none => (false, s)
    | some s => turns n s

/-- Tasks run and timers fire until an answer is there, or until `limit`. -/
def awaitWithin (answered : ω → Bool) (limit : Nat) : Nat → ω → ω × Bool
  | 0, s => (s, false)
  | fuel + 1, s =>
    if answered s then (s, true)
    else
      let (more, s) := m.turns turnLength s
      if more || answered s then awaitWithin answered limit fuel s
      else
        match (m.agenda s).fire? limit with
        | some agenda =>
          if agenda.now < limit then awaitWithin answered limit fuel (m.withAgenda agenda s)
          else (m.withAgenda agenda s, false)
        | none => (m.withAgenda { m.agenda s with now := limit } s, false)

/-- Tasks run and timers fire until an answer is there.  A caller gives up after
`patience`. -/
def await (answered : ω → Bool) (s : ω) : ω × Bool :=
  m.awaitWithin answered ((m.agenda s).now + patience) unbounded s

end Machine

end ChainIndex
