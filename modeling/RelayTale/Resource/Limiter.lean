import Mathlib.Logic.Function.Basic
import RelayTale.Basic
import RelayTale.Foundation.Slices

/-!
# The resource limiter

Goroutines call `Acquire` and the release functions it returns. Every access to
the limiter is made under its mutex, so a critical section is one step. A
goroutine whose request does not fit sleeps on the channel that was current
when it looked; a change closes that channel and puts a new one in its place.
Channels are numbered, and those below the current number are closed.
-/

namespace RelayTale.Resource

/-- A call of `Acquire`, and the address of the request it queues. -/
abbrev CallID := Nat

structure Reservation where
  memory : Int
  spool : Int
  deriving DecidableEq, Repr

structure Limiter where
  memoryLimit : Nat
  spoolLimit : Nat
  queue : Slice CallID := .empty
  changed : Nat := 0
  memory : Int := 0
  spool : Int := 0
  peakMemory : Int := 0
  peakSpool : Int := 0
  waiting : Int := 0

namespace Limiter

variable (l : Limiter) (want : Reservation) (call : CallID)

def pending : List CallID := l.queue.toList

def exceeds : Bool :=
  want.memory < 0 || want.spool < 0 || l.memoryLimit < want.memory || l.spoolLimit < want.spool

def fits : Bool :=
  want.memory ≤ l.memoryLimit - l.memory && want.spool ≤ l.spoolLimit - l.spool

def broadcast : Limiter := { l with changed := l.changed + 1 }

def enqueue : Limiter :=
  { l with
    waiting := l.waiting + 1
    queue := l.queue.append [call] (List.replicate l.queue.length default) }

/-- The request is taken out of the queue in place. -/
def withdraw : Limiter :=
  let i := l.pending.idxOf call
  let queue :=
    if inside : i + 1 ≤ l.queue.length then
      (l.queue.upTo i (Nat.le_of_succ_le inside)).append (l.queue.dropFirst (i + 1) inside).toList []
    else l.queue
  broadcast { l with waiting := l.waiting - 1, queue }

/-- The head of the queue gets its share; its slot is cleared before it is dropped. -/
def grant : Limiter :=
  let cleared := l.queue.set 0 default
  let queue := if inside : 1 ≤ cleared.length then cleared.dropFirst 1 inside else cleared
  let memory := l.memory + want.memory
  let spool := l.spool + want.spool
  broadcast
    { l with
      waiting := l.waiting - 1, queue, memory, spool
      peakMemory := if l.peakMemory < memory then memory else l.peakMemory
      peakSpool := if l.peakSpool < spool then spool else l.peakSpool }

def giveBack : Limiter :=
  broadcast { l with memory := l.memory - want.memory, spool := l.spool - want.spool }

end Limiter

/-- Where a call stands: `blocked` in the `select` on a channel, `running` to
take the mutex again, or at its end. -/
inductive Phase
  | ready
  | refused
  | blocked (channel : Nat)
  | running
  | gaveUp
  | holding
  | released
  deriving DecidableEq, Repr

def Phase.waits : Phase → Bool
  | .blocked _ | .running => true
  | _ => false

/-- The limiter and its callers, with the calls in the order in which they
entered the queue and in the order in which they were granted. -/
structure System where
  limiter : Limiter
  phase : CallID → Phase := fun _ => .ready
  done : CallID → Bool := fun _ => false
  entered : List CallID := []
  granted : List CallID := []

inductive Event
  | acquire (call : CallID)
  | cancel (call : CallID)
  | wake (call : CallID)
  | resume (call : CallID)
  | release (call : CallID)
  deriving DecidableEq, Repr

namespace System

variable (s : System) (call : CallID)

def pending : List CallID := s.limiter.pending

def outstanding : List CallID := s.granted.filter (s.phase · = .holding)

def move (phase : Phase) : System := { s with phase := Function.update s.phase call phase }

def enter : System :=
  { s.move call .running with
    limiter := s.limiter.enqueue call, entered := s.entered ++ [call] }

def giveUp : System := { s.move call .gaveUp with limiter := s.limiter.withdraw call }

def grant (want : Reservation) : System :=
  { s.move call .holding with limiter := s.limiter.grant want, granted := s.granted ++ [call] }

/-- One turn of the loop of `Acquire`, with the mutex held. -/
def turn (want : Reservation) : System :=
  if s.done call then s.giveUp call
  else if s.pending.head? = some call ∧ s.limiter.fits want = true then s.grant call want
  else s.move call (.blocked s.limiter.changed)

def giveBack (want : Reservation) : System :=
  { s.move call .released with limiter := s.limiter.giveBack want }

end System

variable (want : CallID → Reservation)

def step : Event → System → Option System
  | .acquire call, s =>
      if s.phase call = .ready then
        if s.limiter.exceeds (want call) then some (s.move call .refused)
        else some ((s.enter call).turn call (want call))
      else none
  | .cancel call, s => some { s with done := Function.update s.done call true }
  | .wake call, s =>
      match s.phase call with
      | .blocked channel =>
          if s.done call ∨ channel < s.limiter.changed then some (s.move call .running) else none
      | _ => none
  | .resume call, s => if s.phase call = .running then some (s.turn call (want call)) else none
  | .release call, s =>
      -- the function runs once, however often it is called
      match s.phase call with
      | .holding => some (s.giveBack call (want call))
      | .released => some s
      | _ => none

def run : List Event → System → Option System
  | [], s => some s
  | event :: rest, s => (step want event s).bind (run rest)

def start (memoryLimit spoolLimit : Nat) : System := { limiter := { memoryLimit, spoolLimit } }

namespace Limiter

variable {l : Limiter} {r : Reservation} {call : CallID}

@[simp] theorem pending_broadcast : l.broadcast.pending = l.pending := rfl

@[simp] theorem pending_enqueue : (l.enqueue call).pending = l.pending ++ [call] :=
  Slice.toList_append _ _ _

@[simp] theorem pending_withdraw : (l.withdraw call).pending = l.pending.erase call := by
  rw [List.erase_eq_eraseIdx_of_idxOf rfl, List.eraseIdx_eq_take_drop_succ]
  simp only [withdraw, pending_broadcast]
  split
  next inside => simp only [pending, Slice.toList_append, Slice.toList_upTo, Slice.toList_dropFirst]
  next outside =>
    have beyond : l.pending.length ≤ l.pending.idxOf call := by
      rw [pending, Slice.length_toList]
      exact Nat.le_of_lt_succ (Nat.not_le.mp outside)
    rw [List.take_of_length_le beyond, List.drop_eq_nil_of_le (Nat.le_succ_of_le beyond),
      List.append_nil]
    rfl

@[simp] theorem pending_grant : (l.grant r).pending = l.pending.tail := by
  simp only [grant, pending_broadcast]
  split
  next => simp only [pending, Slice.toList_dropFirst, Slice.toList_set]; cases l.queue.toList <;> rfl
  next empty =>
    have none : l.queue.toList = [] := by
      rw [← List.length_eq_zero_iff, Slice.length_toList]
      exact Nat.lt_one_iff.mp (Nat.not_le.mp empty)
    simp [pending, none]

end Limiter

inductive Stepped (s : System) : System → Prop
  | refused {call : CallID} (ready : s.phase call = .ready) : Stepped s (s.move call .refused)
  | entered {call : CallID} (ready : s.phase call = .ready)
      (within : s.limiter.exceeds (want call) = false) :
      Stepped s ((s.enter call).turn call (want call))
  | cancelled (call : CallID) : Stepped s { s with done := Function.update s.done call true }
  | woken {call : CallID} {channel : Nat} (blocked : s.phase call = .blocked channel) :
      Stepped s (s.move call .running)
  | turned {call : CallID} (running : s.phase call = .running) :
      Stepped s (s.turn call (want call))
  | released {call : CallID} (holding : s.phase call = .holding) :
      Stepped s (s.giveBack call (want call))
  | again : Stepped s s

variable {want} in
theorem step_cases {event : Event} {s s' : System} (stepped : step want event s = some s') :
    Stepped want s s' := by
  cases event with
  | acquire call =>
    simp only [step] at stepped
    split at stepped
    next ready =>
      split at stepped
      · cases stepped
        exact .refused ready
      next within =>
        cases stepped
        exact .entered ready (Bool.not_eq_true _ ▸ within)
    · cases stepped
  | cancel call =>
    cases stepped
    exact .cancelled call
  | wake call =>
    simp only [step] at stepped
    split at stepped
    next blocked =>
      split at stepped
      · cases stepped
        exact .woken blocked
      · cases stepped
    · cases stepped
  | resume call =>
    simp only [step] at stepped
    split at stepped
    next running =>
      cases stepped
      exact .turned running
    · cases stepped
  | release call =>
    simp only [step] at stepped
    split at stepped
    next holding =>
      cases stepped
      exact .released holding
    · cases stepped
      exact .again
    · cases stepped

end RelayTale.Resource
