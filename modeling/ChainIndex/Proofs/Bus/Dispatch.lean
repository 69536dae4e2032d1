import Mathlib.Data.List.Nodup
import Mathlib.Logic.Relation
import ChainIndex.Bus

/-!
# What the dispatcher makes of its messages

Callers bring messages, services are registered and the dispatcher works, and their steps come in
any order.  The dispatcher handles messages in the order in which they got into the mailbox, up to
the first exit.  A call that it makes returns some time later, which is a step of its own.

A state also keeps what happened, which no step reads: which messages got in, which were handled and
with which services registered, which calls were made, what callers learned, which messages were
dropped at the exit, and which callers were refused.
-/

namespace ChainIndex

/-! ## Messages -/

/-- A message stops the bus. -/
def Envelope.isExit (e : Envelope) : Bool :=
  match e.command with
  | .exit => e.service = Bus.controller
  | _ => false

/-- The service that a message has called, and the call. -/
def Envelope.call? (e : Envelope) : Option (String × ServiceCall) :=
  if e.service = Bus.controller then
    match e.command with
    | .setWorkers service count => some (service, .scale service count)
    | _ => none
  else some (e.service, .execute e)

/-- The messages up to the first exit. -/
def upToExit (messages : List Envelope) : List Envelope :=
  messages.takeWhile (!·.isExit) ++ (messages.find? (·.isExit)).toList

/-- A message that was handled. -/
structure Handled where
  envelope : Envelope
  /-- The services that were registered then. -/
  services : List String

namespace Handled

/-- The call that forwards a message, where the service was registered. -/
def forward? (x : Handled) : Option ServiceCall :=
  match x.envelope.call? with
  | some (service, call) => if service ∈ x.services then some call else none
  | none => none

/-- The calls that an exit comes with. -/
def shutdowns (x : Handled) : List ServiceCall :=
  if x.envelope.isExit then x.services.map .shutdown else []

/-- What the dispatcher has to say about a message, which is nothing where a service replies. -/
def outcome? (x : Handled) : Option Outcome :=
  if x.envelope.isExit then some (.replied .ack)
  else match x.envelope.call? with
    | none => some (.replied (.rejected
        ("controller does not handle '" ++ x.envelope.command.name ++ "'")))
    | some (service, .execute _) => if service ∈ x.services then none else some .dropped
    | some (service, _) =>
      if service ∈ x.services then some (.replied .ack)
      else some (.replied (.rejected (BusFault.unknownService service).message))

/-- What its caller learns from the dispatcher, where one waits. -/
def outcomes (x : Handled) : List (Nat × Outcome) :=
  x.outcome?.toList.flatMap (Bus.answer x.envelope.returns)

end Handled

/-- What a caller will learn once the calls of the dispatcher have returned. -/
def Desk.outcomes : Desk → List (Nat × Outcome)
  | .free => []
  | .calling returns | .stopping returns => Bus.answer returns (.replied .ack)

/-! ## Steps -/

/-- A bus between two steps, and what happened on it. -/
structure BusRun where
  bus : Bus := {}
  /-- The messages that got into the mailbox, in order. -/
  arrived : List Envelope := []
  /-- The messages that the dispatcher took, in order. -/
  handled : List Handled := []
  /-- The calls that the dispatcher made, in order. -/
  calls : List ServiceCall := []
  /-- What callers learned, in order. -/
  told : List (Nat × Outcome) := []
  /-- The messages that the exit left. -/
  lost : List Envelope := []
  /-- The tickets of the callers that were refused, in order. -/
  refused : List Nat := []

/-- A step of the dispatcher. -/
inductive BusWork (s : BusRun) : BusRun → Prop
  /-- It takes a message, and who waits for room gets in. -/
  | take {e : Envelope} {rest : List Envelope} {calls : List ServiceCall}
      {outcomes : List (Nat × Outcome)} {bus : Bus} (next : s.bus.mailbox = e :: rest)
      (taken : s.bus.take? = some (calls, outcomes, bus)) :
      BusWork s { s with
        bus := bus
        arrived := s.arrived ++ bus.mailbox.drop rest.length
        handled := s.handled ++ [⟨e, s.bus.services⟩]
        calls := s.calls ++ calls
        told := s.told ++ outcomes }
  /-- A call has returned. -/
  | finish {returns : Option Nat} (on : s.bus.desk = .calling returns) :
      BusWork s { s with bus := s.bus.finish.2, told := s.told ++ s.bus.finish.1 }
  /-- All services are down, and the bus exits. -/
  | stop {returns : Option Nat} (on : s.bus.desk = .stopping returns) :
      BusWork s { s with
        bus := s.bus.finish.2
        told := s.told ++ s.bus.finish.1
        lost := s.bus.mailbox
        refused := s.bus.senders.map (·.1) }

/-- A step of a caller, of who registers services, or of the dispatcher. -/
inductive BusStep (s : BusRun) : BusRun → Prop
  /-- A service is registered. -/
  | register (service : String) {bus : Bus} (registered : s.bus.register service = .ok bus) :
      BusStep s { s with bus := bus }
  /-- The dispatcher is started. -/
  | start : BusStep s { s with bus := { s.bus with running := true } }
  /-- A caller brings a message, which gets in or waits for room. -/
  | post (ticket : Nat) (e : Envelope) {bus : Bus} (posted : s.bus.post? ticket e = some bus) :
      BusStep s { s with
        bus := bus
        arrived := s.arrived ++ bus.mailbox.drop s.bus.mailbox.length }
  /-- A caller brings a message and is refused. -/
  | refuse (ticket : Nat) (e : Envelope) (refused : s.bus.post? ticket e = none) :
      BusStep s { s with
        told := s.told ++ [(ticket, .refused)]
        refused := s.refused ++ [ticket] }
  /-- A caller no longer waits for room. -/
  | cancel (ticket : Nat) : BusStep s { s with bus := s.bus.cancel ticket }
  /-- The dispatcher works. -/
  | work {t : BusRun} (work : BusWork s t) : BusStep s t

/-- What a new bus becomes. -/
inductive BusReachable : BusRun → Prop
  | start (capacity : Nat) : BusReachable { bus := { capacity := capacity } }
  | step {s t : BusRun} (reached : BusReachable s) (step : BusStep s t) : BusReachable t

/-! ## Single operations -/

namespace Bus

variable {b b' : Bus} {e : Envelope}

theorem mailbox_letIn (b : Bus) :
    b.mailbox ++ b.letIn.mailbox.drop b.mailbox.length = b.letIn.mailbox :=
  List.prefix_iff_eq_append.mp (List.prefix_append ..)

theorem length_letIn (b : Bus) : b.letIn.mailbox.length + b.letIn.senders.length =
    b.mailbox.length + b.senders.length := by
  simp only [letIn, List.length_append, List.length_map, List.length_take, List.length_drop]
  omega

theorem post?_some {ticket : Nat} (posted : b.post? ticket e = some b') :
    b.exited = false ∧ b' = { b with senders := b.senders ++ [(ticket, e)] }.letIn ∧
      b.mailbox ++ b'.mailbox.drop b.mailbox.length = b'.mailbox := by
  rw [post?] at posted
  split at posted
  case isTrue => cases posted
  case isFalse up =>
    cases posted
    exact ⟨by simpa using up, rfl, mailbox_letIn { b with senders := b.senders ++ [(ticket, e)] }⟩

theorem post?_eq_none {ticket : Nat} : b.post? ticket e = none ↔ b.exited = true := by
  rw [post?]
  split
  · simp_all
  · simp_all

/-- What it means that the dispatcher took a message. -/
structure Took (b : Bus) (e : Envelope) (rest : List Envelope) (calls : List ServiceCall)
    (outcomes : List (Nat × Outcome)) (b' : Bus) : Prop where
  up : b.exited = false
  free : b.desk = .free
  calls : calls = (b.handle e).1
  outcomes : outcomes = (b.handle e).2.1
  services : b'.services = b.services
  desk : b'.desk = (b.handle e).2.2
  running : b'.running = b.running
  stillUp : b'.exited = false
  entered : rest ++ b'.mailbox.drop rest.length = b'.mailbox
  waiting : b'.mailbox.length + b'.senders.length = rest.length + b.senders.length

theorem Took.of_take? {rest : List Envelope} {calls : List ServiceCall}
    {outcomes : List (Nat × Outcome)} (next : b.mailbox = e :: rest)
    (taken : b.take? = some (calls, outcomes, b')) : Took b e rest calls outcomes b' := by
  rw [take?, next] at taken
  split at taken
  case isFalse => cases taken
  case isTrue ready =>
    cases taken
    simp only [Bool.and_eq_true, Bool.not_eq_eq_eq_not, Bool.not_true, decide_eq_true_eq] at ready
    let left : Bus := { b with mailbox := rest, desk := (b.handle e).2.2 }
    exact ⟨ready.1.2, ready.2, rfl, rfl, rfl, rfl, rfl, ready.1.2, mailbox_letIn left,
      length_letIn left⟩

/-- The dispatcher takes the next message where it runs and is on nothing. -/
theorem take?_isSome (running : b.running = true) (up : b.exited = false) (free : b.desk = .free)
    (waiting : b.mailbox ≠ []) : b.take?.isSome := by
  cases next : b.mailbox with
  | nil => exact absurd next waiting
  | cons e rest => simp [take?, next, running, up, free]

theorem handle_exit {e : Envelope} (exit : e.isExit) :
    b.handle e = (b.services.map .shutdown, [], .stopping e.returns) := by
  obtain ⟨service, command, returns⟩ := e
  cases command with
  | exit =>
    have control : service = controller := by simpa [Envelope.isExit] using exit
    simp [handle, control]
  | _ => cases exit

/-- What the dispatcher does about a message that does not stop the bus. -/
theorem handle_other {e : Envelope} (other : e.isExit = false) :
    (b.handle e).1 = (⟨e, b.services⟩ : Handled).forward?.toList ∧
    (b.handle e).2.1 ++ (b.handle e).2.2.outcomes = (⟨e, b.services⟩ : Handled).outcomes ∧
    ∀ returns, (b.handle e).2.2 ≠ .stopping returns := by
  obtain ⟨service, command, returns⟩ := e
  by_cases control : service = controller
  · subst control
    cases command with
    | exit => simp [Envelope.isExit] at other
    | setWorkers name count =>
      by_cases there : name ∈ b.services
      · simp [handle, isRegistered, Handled.forward?, Handled.outcomes, Handled.outcome?,
          Envelope.isExit, Envelope.call?, there, Desk.outcomes]
      · simp [handle, isRegistered, Handled.forward?, Handled.outcomes, Handled.outcome?,
          Envelope.isExit, Envelope.call?, there, Desk.outcomes]
    | _ =>
      simp [handle, Handled.forward?, Handled.outcomes, Handled.outcome?, Envelope.isExit,
        Envelope.call?, Desk.outcomes]
  · by_cases there : service ∈ b.services
    · simp [handle, isRegistered, Handled.forward?, Handled.outcomes, Handled.outcome?, other,
        Envelope.call?, control, there, Desk.outcomes, answer]
    · simp [handle, isRegistered, Handled.forward?, Handled.outcomes, Handled.outcome?, other,
        Envelope.call?, control, there, Desk.outcomes]

end Bus

/-! ## The invariant -/

variable {s t : BusRun}

/-- The messages that were handled, at most the last of which stopped the bus, and what became of
the mailbox since. -/
inductive Phase (s : BusRun) : Prop
  /-- No exit has been handled. -/
  | serving (noExit : ∀ x ∈ s.handled, x.envelope.isExit = false)
      (on : ∀ returns, s.bus.desk ≠ .stopping returns) (up : s.bus.exited = false)
      (lost : s.lost = []) (refused : s.refused = [])
  /-- The services are being shut down. -/
  | stopping {before : List Handled} {last : Handled} (handled : s.handled = before ++ [last])
      (noExit : ∀ x ∈ before, x.envelope.isExit = false) (exit : last.envelope.isExit)
      (services : last.services.Nodup) (on : s.bus.desk = .stopping last.envelope.returns)
      (up : s.bus.exited = false) (lost : s.lost = []) (refused : s.refused = [])
  /-- The bus has exited. -/
  | exited {before : List Handled} {last : Handled} (handled : s.handled = before ++ [last])
      (noExit : ∀ x ∈ before, x.envelope.isExit = false) (exit : last.envelope.isExit)
      (services : last.services.Nodup) (on : s.bus.desk = .free) (down : s.bus.exited = true)
      (mailbox : s.bus.mailbox = []) (senders : s.bus.senders = [])

/-- A phase lasts while the dispatcher does nothing and nothing gets into a bus that has exited. -/
theorem Phase.last (h : Phase s) (handled : t.handled = s.handled) (lost : t.lost = s.lost)
    (desk : t.bus.desk = s.bus.desk) (exited : t.bus.exited = s.bus.exited)
    (up : s.bus.exited = false → t.refused = s.refused)
    (down : s.bus.exited = true → s.bus.mailbox = [] → s.bus.senders = [] →
      t.bus.mailbox = [] ∧ t.bus.senders = []) : Phase t := by
  cases h with
  | serving noExit on isUp left refused =>
    exact .serving (handled ▸ noExit) (desk ▸ on) (exited ▸ isUp) (lost ▸ left) (up isUp ▸ refused)
  | stopping all noExit exit services on isUp left refused =>
    exact .stopping (handled ▸ all) noExit exit services (desk ▸ on) (exited ▸ isUp) (lost ▸ left)
      (up isUp ▸ refused)
  | exited all noExit exit services on isDown mailbox senders =>
    obtain ⟨mailbox, senders⟩ := down isDown mailbox senders
    exact .exited (handled ▸ all) noExit exit services (desk ▸ on) (exited ▸ isDown) mailbox senders

/-- What callers learn at the exit and after it: messages are dropped, and callers are refused. -/
def turnedAway (lost : List Envelope) (refused : List Nat) : List (Nat × Outcome) :=
  lost.flatMap (fun e => Bus.answer e.returns .dropped) ++
    refused.map fun ticket => (ticket, .refused)

@[simp] theorem turnedAway_nil : turnedAway [] [] = [] := rfl

/-- What happened on a bus is what its messages ask for, in order. -/
structure Dispatched (s : BusRun) : Prop where
  services : s.bus.services.Nodup
  arrived : s.arrived = s.handled.map (·.envelope) ++ s.lost ++ s.bus.mailbox
  calls : s.calls = s.handled.filterMap Handled.forward? ++ s.handled.flatMap Handled.shutdowns
  told : s.told ++ s.bus.desk.outcomes =
    s.handled.flatMap Handled.outcomes ++ turnedAway s.lost s.refused
  phase : Phase s

theorem flatMap_shutdowns {handled : List Handled}
    (noExit : ∀ x ∈ handled, x.envelope.isExit = false) :
    handled.flatMap Handled.shutdowns = [] := by
  refine List.flatMap_eq_nil_iff.mpr fun x there => ?_
  rw [Handled.shutdowns, noExit x there]
  rfl

theorem forward?_exit {x : Handled} (exit : x.envelope.isExit) : x.forward? = none := by
  obtain ⟨⟨service, command, returns⟩, services⟩ := x
  cases command with
  | exit =>
    have control : service = Bus.controller := by simpa [Envelope.isExit] using exit
    simp [Handled.forward?, Envelope.call?, control]
  | _ => cases exit

namespace Dispatched

theorem start (capacity : Nat) : Dispatched { bus := { capacity := capacity } } where
  services := .nil
  arrived := rfl
  calls := rfl
  told := rfl
  phase := .serving (fun _ there => nomatch there) (fun _ on => nomatch on) rfl rfl rfl

theorem register (h : Dispatched s) {service : String} {bus : Bus}
    (registered : s.bus.register service = .ok bus) : Dispatched { s with bus := bus } := by
  rw [Bus.register] at registered
  split at registered
  case isTrue => cases registered
  case isFalse fresh =>
    cases registered
    refine ⟨?_, h.arrived, h.calls, h.told, ?_⟩
    · refine List.nodup_append.mpr ⟨h.services, List.nodup_singleton _, ?_⟩
      rintro old there new isNew rfl
      rw [List.mem_singleton.mp isNew] at there
      exact fresh (by simpa [Bus.isRegistered] using there)
    · exact h.phase.last rfl rfl rfl rfl (fun _ => rfl) fun _ mailbox senders => ⟨mailbox, senders⟩

theorem run (h : Dispatched s) : Dispatched { s with bus := { s.bus with running := true } } where
  services := h.services
  arrived := h.arrived
  calls := h.calls
  told := h.told
  phase := h.phase.last rfl rfl rfl rfl (fun _ => rfl) fun _ mailbox senders => ⟨mailbox, senders⟩

theorem post (h : Dispatched s) {ticket : Nat} {e : Envelope} {bus : Bus}
    (posted : s.bus.post? ticket e = some bus) :
    Dispatched { s with
      bus := bus
      arrived := s.arrived ++ bus.mailbox.drop s.bus.mailbox.length } := by
  obtain ⟨up, rfl, kept⟩ := Bus.post?_some posted
  refine ⟨h.services, ?_, h.calls, h.told, ?_⟩
  · rw [h.arrived, List.append_assoc, kept]
  · refine h.phase.last rfl rfl rfl rfl (fun _ => rfl) fun down => ?_
    rw [up] at down
    cases down

theorem refuse (h : Dispatched s) {ticket : Nat} {e : Envelope}
    (refused : s.bus.post? ticket e = none) :
    Dispatched { s with
      told := s.told ++ [(ticket, .refused)]
      refused := s.refused ++ [ticket] } := by
  have down := Bus.post?_eq_none.mp refused
  refine ⟨h.services, h.arrived, h.calls, ?_, ?_⟩
  · have told := h.told
    cases h.phase with
    | serving _ _ up | stopping _ _ _ _ _ up =>
      rw [down] at up
      cases up
    | exited _ _ _ _ free =>
      rw [free, Desk.outcomes, List.append_nil] at told
      rw [free, Desk.outcomes, List.append_nil, told]
      simp [turnedAway]
  · refine h.phase.last rfl rfl rfl rfl (fun up => ?_) fun _ mailbox senders => ⟨mailbox, senders⟩
    rw [down] at up
    cases up

theorem cancel (h : Dispatched s) (ticket : Nat) :
    Dispatched { s with bus := s.bus.cancel ticket } where
  services := h.services
  arrived := h.arrived
  calls := h.calls
  told := h.told
  phase := by
    refine h.phase.last rfl rfl rfl rfl (fun _ => rfl) fun _ mailbox senders => ⟨mailbox, ?_⟩
    rw [Bus.cancel, senders]
    rfl

theorem take (h : Dispatched s) {e : Envelope} {rest : List Envelope} {calls : List ServiceCall}
    {outcomes : List (Nat × Outcome)} {bus : Bus} (next : s.bus.mailbox = e :: rest)
    (taken : s.bus.take? = some (calls, outcomes, bus)) :
    Dispatched { s with
      bus := bus
      arrived := s.arrived ++ bus.mailbox.drop rest.length
      handled := s.handled ++ [⟨e, s.bus.services⟩]
      calls := s.calls ++ calls
      told := s.told ++ outcomes } := by
  have took := Bus.Took.of_take? next taken
  cases h.phase with
  | stopping _ _ _ _ on =>
    rw [took.free] at on
    cases on
  | exited _ _ _ _ _ down =>
    rw [took.up] at down
    cases down
  | serving noExit _ _ lost refused =>
    let x : Handled := ⟨e, s.bus.services⟩
    have services : bus.services.Nodup := took.services ▸ h.services
    have order : s.arrived ++ bus.mailbox.drop rest.length =
        (s.handled ++ [x]).map (·.envelope) ++ s.lost ++ bus.mailbox := by
      rw [h.arrived, lost, next, ← took.entered]
      simp [x]
    have made : s.calls = s.handled.filterMap Handled.forward? := by
      rw [h.calls, flatMap_shutdowns noExit, List.append_nil]
    have told : s.told = s.handled.flatMap Handled.outcomes := by
      simpa [took.free, Desk.outcomes, lost, refused] using h.told
    have desk := took.desk
    rw [took.calls, took.outcomes]
    cases exit : e.isExit with
    | true =>
      rw [Bus.handle_exit exit] at desk ⊢
      refine ⟨services, order, ?_, ?_,
        .stopping rfl noExit exit h.services desk took.stillUp lost refused⟩
      · simp [made, forward?_exit, exit, Handled.shutdowns, flatMap_shutdowns noExit]
      · simp [told, desk, Desk.outcomes, lost, refused, Handled.outcomes, Handled.outcome?, exit]
    | false =>
      obtain ⟨forward, outcome, on⟩ := Bus.handle_other (b := s.bus) exit
      have all : ∀ y ∈ s.handled ++ [x], y.envelope.isExit = false := by
        intro y there
        rcases List.mem_append.mp there with there | there
        · exact noExit y there
        · rw [List.mem_singleton.mp there]
          exact exit
      refine ⟨services, order, ?_, ?_, .serving all (desk ▸ on) took.stillUp lost refused⟩
      · rw [flatMap_shutdowns all, List.append_nil, List.filterMap_append, made, forward]
        cases call : x.forward? with
        | none => simp [x, call]
        | some _ => simp [x, call]
      · rw [desk, told, List.append_assoc, outcome]
        simp [lost, refused]

theorem finish (h : Dispatched s) {returns : Option Nat} (on : s.bus.desk = .calling returns) :
    Dispatched { s with bus := s.bus.finish.2, told := s.told ++ s.bus.finish.1 } := by
  have told := h.told
  rw [Bus.finish, on]
  rw [on] at told
  refine ⟨h.services, h.arrived, h.calls, ?_, ?_⟩
  · simpa [Desk.outcomes] using told
  · cases h.phase with
    | serving noExit _ up lost refused =>
      exact .serving noExit (fun _ on => nomatch on) up lost refused
    | stopping _ _ _ _ stopping =>
      rw [on] at stopping
      cases stopping
    | exited _ _ _ _ free =>
      rw [on] at free
      cases free

theorem stop (h : Dispatched s) {returns : Option Nat} (on : s.bus.desk = .stopping returns) :
    Dispatched { s with
      bus := s.bus.finish.2
      told := s.told ++ s.bus.finish.1
      lost := s.bus.mailbox
      refused := s.bus.senders.map (·.1) } := by
  have told := h.told
  have arrived := h.arrived
  rw [Bus.finish, on]
  cases h.phase with
  | serving _ other => exact absurd on (other _)
  | exited _ _ _ _ free =>
    rw [on] at free
    cases free
  | stopping handled noExit exit services _ up lost refused =>
    rw [on, lost, refused, turnedAway_nil, List.append_nil] at told
    rw [lost, List.append_nil] at arrived
    refine ⟨h.services, ?_, h.calls, ?_, .exited handled noExit exit services rfl rfl rfl rfl⟩
    · rw [arrived, List.append_nil]
    · simp [← told, turnedAway, Desk.outcomes]

end Dispatched

theorem BusReachable.dispatched (reached : BusReachable s) : Dispatched s := by
  induction reached with
  | start capacity => exact .start capacity
  | step _ step ih =>
    cases step with
    | register _ registered => exact ih.register registered
    | start => exact ih.run
    | post _ _ posted => exact ih.post posted
    | refuse _ _ refused => exact ih.refuse refused
    | cancel ticket => exact ih.cancel ticket
    | work work =>
      cases work with
      | take next taken => exact ih.take next taken
      | finish on => exact ih.finish on
      | stop on => exact ih.stop on

/-! ## Up to the first exit -/

theorem upToExit_append {first : List Envelope} (noExit : ∀ e ∈ first, e.isExit = false)
    (rest : List Envelope) : upToExit (first ++ rest) = first ++ upToExit rest := by
  have passed : first.find? (·.isExit) = none := by
    refine List.find?_eq_none.mpr fun e there => ?_
    simp [noExit e there]
  rw [upToExit, upToExit, List.takeWhile_append_of_pos fun e there => by simp [noExit e there],
    List.find?_append, passed, List.append_assoc]
  rfl

theorem upToExit_cons {e : Envelope} (exit : e.isExit) (rest : List Envelope) :
    upToExit (e :: rest) = [e] := by
  simp [upToExit, exit]

/-- An exit was handled. -/
def BusRun.Stopped (s : BusRun) : Prop := ∃ x ∈ s.handled, x.envelope.isExit

namespace Dispatched

theorem noExit (h : Dispatched s) (serving : ¬s.Stopped) :
    (∀ x ∈ s.handled, x.envelope.isExit = false) ∧ s.lost = [] := by
  cases h.phase with
  | serving noExit _ _ lost => exact ⟨noExit, lost⟩
  | stopping handled _ exit | exited handled _ exit =>
    refine absurd ⟨_, ?_, exit⟩ serving
    simp [handled]

/-- An exit that was handled is the last message that was.  Each service that was registered then is
shut down once. -/
theorem stopped (h : Dispatched s) (stopped : s.Stopped) :
    ∃ before last, s.handled = before ++ [last] ∧ (∀ x ∈ before, x.envelope.isExit = false) ∧
      last.envelope.isExit ∧ last.services.Nodup ∧
      (s.bus.desk = .stopping last.envelope.returns ∨ s.bus.exited = true) := by
  cases h.phase with
  | serving noExit =>
    obtain ⟨x, there, exit⟩ := stopped
    rw [noExit x there] at exit
    cases exit
  | stopping handled noExit exit services on =>
    exact ⟨_, _, handled, noExit, exit, services, .inl on⟩
  | exited handled noExit exit services _ down =>
    exact ⟨_, _, handled, noExit, exit, services, .inr down⟩

theorem handled_of_stopped (h : Dispatched s) (stopped : s.Stopped) :
    s.handled.map (·.envelope) = upToExit s.arrived := by
  obtain ⟨before, last, handled, noExit, exit, _⟩ := h.stopped stopped
  have passed : ∀ e ∈ before.map (·.envelope), e.isExit = false := by
    simpa using noExit
  rw [h.arrived, handled, List.map_append, List.append_assoc, List.append_assoc,
    upToExit_append passed]
  exact congrArg _ (upToExit_cons exit _).symm

theorem handled_of_serving (h : Dispatched s) (serving : ¬s.Stopped) :
    upToExit s.arrived = s.handled.map (·.envelope) ++ upToExit s.bus.mailbox := by
  obtain ⟨noExit, lost⟩ := h.noExit serving
  have passed : ∀ e ∈ s.handled.map (·.envelope), e.isExit = false := by
    simpa using noExit
  rw [h.arrived, lost, List.append_nil, upToExit_append passed]

theorem shutdowns_nodup (h : Dispatched s) : (s.handled.flatMap Handled.shutdowns).Nodup := by
  by_cases stopped : s.Stopped
  · obtain ⟨before, last, handled, noExit, exit, services, _⟩ := h.stopped stopped
    have only : s.handled.flatMap Handled.shutdowns = last.services.map .shutdown := by
      simp [handled, flatMap_shutdowns noExit, Handled.shutdowns, exit]
    rw [only]
    exact services.map fun _ _ same => ServiceCall.shutdown.inj same
  · rw [flatMap_shutdowns (h.noExit stopped).1]
    exact .nil

end Dispatched

/-! ## What lasts -/

/-- Once an exit was handled, no step handles a message or makes a call. -/
theorem BusStep.of_stopped (h : Dispatched s) (step : BusStep s t) (stopped : s.Stopped) :
    t.handled = s.handled ∧ t.calls = s.calls := by
  cases step with
  | register | start | post | refuse | cancel => exact ⟨rfl, rfl⟩
  | work work =>
    cases work with
    | finish | stop => exact ⟨rfl, rfl⟩
    | take next taken =>
      have took := Bus.Took.of_take? next taken
      obtain ⟨_, _, _, _, _, _, on | down⟩ := h.stopped stopped
      · rw [took.free] at on
        cases on
      · rw [took.up] at down
        cases down

theorem Dispatched.down (h : Dispatched s) (down : s.bus.exited = true) :
    s.Stopped ∧ s.bus.desk = .free ∧ s.bus.mailbox = [] := by
  cases h.phase with
  | serving _ _ up | stopping _ _ _ _ _ up =>
    rw [down] at up
    cases up
  | exited handled _ exit _ free _ mailbox => exact ⟨⟨_, by simp [handled], exit⟩, free, mailbox⟩

/-- A bus that has exited stays so, and what it left stays lost. -/
theorem BusStep.of_exited (h : Dispatched s) (step : BusStep s t) (down : s.bus.exited = true) :
    t.bus.exited = true ∧ t.lost = s.lost := by
  obtain ⟨_, free, _⟩ := h.down down
  cases step with
  | start | refuse | cancel => exact ⟨down, rfl⟩
  | register _ registered =>
    rw [Bus.register] at registered
    split at registered
    · cases registered
    · cases registered
      exact ⟨down, rfl⟩
  | post _ _ posted =>
    rw [(Bus.post?_some posted).1] at down
    cases down
  | work work =>
    cases work with
    | take next taken =>
      rw [(Bus.Took.of_take? next taken).up] at down
      cases down
    | finish on | stop on =>
      rw [free] at on
      cases on

/-! ## What the dispatcher gets done -/

namespace BusRun

/-- The dispatcher has nothing to do. -/
def Idle (s : BusRun) : Prop := s.bus.desk = .free ∧ (s.bus.exited = true ∨ s.bus.mailbox = [])

/-- The steps that the dispatcher has before it at most. -/
def stepsLeft (s : BusRun) : Nat :=
  2 * (s.bus.mailbox.length + s.bus.senders.length) + if s.bus.desk = .free then 0 else 1

end BusRun

/-- A dispatcher that was started goes on until it has nothing to do. -/
theorem BusWork.of_running (running : s.bus.running = true) (busy : ¬s.Idle) :
    ∃ t, BusWork s t ∧ t.bus.running = true ∧ t.stepsLeft < s.stepsLeft := by
  cases on : s.bus.desk with
  | calling returns =>
    refine ⟨_, .finish on, ?_, ?_⟩
    · rw [Bus.finish, on]
      exact running
    · simp [BusRun.stepsLeft, Bus.finish, on]
  | stopping returns =>
    refine ⟨_, .stop on, ?_, ?_⟩
    · rw [Bus.finish, on]
      exact running
    · simp [BusRun.stepsLeft, Bus.finish, on]
  | free =>
    have up : s.bus.exited = false := Bool.eq_false_iff.mpr fun down => busy ⟨on, .inl down⟩
    cases next : s.bus.mailbox with
    | nil => exact absurd ⟨on, .inr next⟩ busy
    | cons e rest =>
      have isSome := Bus.take?_isSome running up on (next ▸ List.cons_ne_nil e rest)
      obtain ⟨⟨calls, outcomes, bus⟩, taken⟩ := Option.isSome_iff_exists.mp isSome
      have took := Bus.Took.of_take? next taken
      refine ⟨_, .take next taken, took.running.trans running, ?_⟩
      simp only [BusRun.stepsLeft, next, on, List.length_cons, if_true, took.waiting]
      split
      · omega
      · omega

theorem BusWork.arrived (work : BusWork s t) : s.arrived <+: t.arrived := by
  cases work with
  | take => exact List.prefix_append _ _
  | finish | stop => exact List.prefix_refl _

theorem BusRun.settles (running : s.bus.running = true) :
    ∃ t, Relation.ReflTransGen BusWork s t ∧ s.arrived <+: t.arrived ∧ t.Idle := by
  induction left : s.stepsLeft using Nat.strongRecOn generalizing s with
  | ind n ih =>
    by_cases idle : s.Idle
    · exact ⟨s, .refl, List.prefix_refl _, idle⟩
    · obtain ⟨next, work, still, less⟩ := BusWork.of_running running idle
      obtain ⟨t, run, arrived, idle⟩ := ih next.stepsLeft (left ▸ less) still rfl
      exact ⟨t, run.head work, work.arrived.trans arrived, idle⟩

/-! ## Runs -/

theorem BusReachable.run (reached : BusReachable s) (run : Relation.ReflTransGen BusStep s t) :
    BusReachable t := by
  induction run with
  | refl => exact reached
  | tail _ step ih => exact ih.step step

theorem BusReachable.after_stopped (reached : BusReachable s) (stopped : s.Stopped)
    (run : Relation.ReflTransGen BusStep s t) : t.handled = s.handled ∧ t.calls = s.calls := by
  induction run with
  | refl => exact ⟨rfl, rfl⟩
  | @tail u _ run step ih =>
    have still : u.Stopped := by
      rw [BusRun.Stopped, ih.1]
      exact stopped
    obtain ⟨handled, calls⟩ := step.of_stopped (reached.run run).dispatched still
    exact ⟨handled.trans ih.1, calls.trans ih.2⟩

theorem BusReachable.after_exited (reached : BusReachable s) (down : s.bus.exited = true)
    (run : Relation.ReflTransGen BusStep s t) : t.bus.exited = true ∧ t.lost = s.lost := by
  induction run with
  | refl => exact ⟨down, rfl⟩
  | tail run step ih =>
    obtain ⟨still, lost⟩ := step.of_exited (reached.run run).dispatched ih.1
    exact ⟨still, lost.trans ih.2⟩

/-- Where the dispatcher has nothing to do, it has handled all messages up to the first exit. -/
theorem Dispatched.of_idle (h : Dispatched s) (idle : s.Idle) :
    s.handled.map (·.envelope) = upToExit s.arrived ∧ (s.Stopped → s.bus.exited = true) := by
  obtain ⟨free, done⟩ := idle
  by_cases stopped : s.Stopped
  · refine ⟨h.handled_of_stopped stopped, fun _ => ?_⟩
    obtain ⟨_, _, _, _, _, _, on | down⟩ := h.stopped stopped
    · rw [free] at on
      cases on
    · exact down
  · refine ⟨?_, fun now => absurd now stopped⟩
    rcases done with down | empty
    · exact absurd (h.down down).1 stopped
    · rw [h.handled_of_serving stopped, empty]
      exact (List.append_nil _).symm

/-- However messages, registrations and the steps of the dispatcher come, it handles messages in the
order in which they got into the mailbox, up to the first exit.  The calls that it makes are those
of the messages, each once and in order, where their service was registered when they were handled,
and the shutdown of each service that was registered when the exit was handled.  Callers learn what
became of their messages: an exit and a scaled service are acknowledged, other commands to the
dispatcher are rejected, and a message for nobody is dropped.  After an exit was handled no message
is handled and no call is made.  Once the services are down, what is still in the mailbox is
dropped, who waits for room or comes later is refused, and the bus has exited for good.  Where calls
return, a dispatcher that was started gets there. -/
theorem bus_forwards_until_exit (reached : BusReachable s) :
    s.arrived = s.handled.map (·.envelope) ++ s.lost ++ s.bus.mailbox ∧
    s.handled.map (·.envelope) <+: upToExit s.arrived ∧
    s.calls = s.handled.filterMap Handled.forward? ++ s.handled.flatMap Handled.shutdowns ∧
    (s.handled.flatMap Handled.shutdowns).Nodup ∧
    s.told ++ s.bus.desk.outcomes =
      s.handled.flatMap Handled.outcomes ++ turnedAway s.lost s.refused ∧
    (s.bus.exited = false → s.lost = [] ∧ s.refused = []) ∧
    (s.bus.exited = true → s.Stopped ∧ s.bus.desk = .free ∧ s.bus.mailbox = [] ∧
      ∀ ticket e, s.bus.post? ticket e = none) ∧
    (∀ t, Relation.ReflTransGen BusStep s t →
      (s.Stopped → t.handled = s.handled ∧ t.calls = s.calls) ∧
      (s.bus.exited = true → t.bus.exited = true ∧ t.lost = s.lost)) ∧
    (s.bus.running = true → ∃ t, Relation.ReflTransGen BusWork s t ∧ s.arrived <+: t.arrived ∧
      t.handled.map (·.envelope) = upToExit t.arrived ∧ t.bus.desk = .free ∧
      (t.Stopped → t.bus.exited = true)) := by
  have h := reached.dispatched
  refine ⟨h.arrived, ?_, h.calls, h.shutdowns_nodup, h.told, ?_, ?_, ?_, ?_⟩
  · by_cases stopped : s.Stopped
    · exact h.handled_of_stopped stopped ▸ List.prefix_refl _
    · rw [h.handled_of_serving stopped]
      exact List.prefix_append _ _
  · intro up
    cases h.phase with
    | serving _ _ _ lost refused | stopping _ _ _ _ _ _ lost refused => exact ⟨lost, refused⟩
    | exited _ _ _ _ _ down =>
      rw [up] at down
      cases down
  · intro down
    obtain ⟨stopped, free, empty⟩ := h.down down
    exact ⟨stopped, free, empty, fun _ _ => Bus.post?_eq_none.mpr down⟩
  · intro t run
    exact ⟨fun stopped => reached.after_stopped stopped run,
      fun down => reached.after_exited down run⟩
  · intro running
    obtain ⟨t, run, arrived, idle⟩ := BusRun.settles running
    have next : BusReachable t :=
      reached.run (Relation.ReflTransGen.mono (fun _ _ work => .work work) _ _ run)
    obtain ⟨all, down⟩ := next.dispatched.of_idle idle
    exact ⟨t, run, arrived, all, idle.1, down⟩

/-- A message before an exit is forwarded, and the one behind it is dropped. -/
theorem bus_forwards_until_exit_of_one_behind :
    ∃ s : BusRun, BusReachable s ∧ s.bus.exited = true ∧
      s.calls = [.execute ⟨"Rows", .getHead, some 1⟩, .shutdown "Rows"] ∧
      s.told = [(2, .replied .ack), (3, .dropped)] ∧ ∀ ticket e, s.bus.post? ticket e = none := by
  have registered := (BusReachable.start 8).step (.register "Rows" rfl)
  have first := registered.step (.post 1 ⟨"Rows", .getHead, some 1⟩ rfl)
  have second := first.step (.post 2 ⟨Bus.controller, .exit, some 2⟩ rfl)
  have third := second.step (.post 3 ⟨"Rows", .getHead, some 3⟩ rfl)
  have forwarded := ((third.step .start).step (.work (.take rfl rfl))).step (.work (.finish rfl))
  have exited := (forwarded.step (.work (.take rfl rfl))).step (.work (.stop rfl))
  obtain ⟨_, _, calls, _, told, _, down, _⟩ := bus_forwards_until_exit exited
  exact ⟨_, exited, rfl, calls, told, (down rfl).2.2.2⟩

end ChainIndex
