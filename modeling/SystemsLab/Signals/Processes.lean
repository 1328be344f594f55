import Mathlib.Tactic.Cases
import Mathlib.Order.Nat

/-! The sender and the receiver of `week6/w6.c`: two processes that count each other's signals. -/

namespace SystemsLab.Signals

/-- In `sigsuspend`, where the signals are not blocked: has a handler run yet? -/
inductive ParentPhase where
  | suspended (woken : Bool)
  | handling
  | exited
deriving DecidableEq

inductive ChildPhase where
  | suspended (woken : Bool)
  | looping
  | acking
  | exited
deriving DecidableEq

inductive Line where
  | allSent
  | remaining (remainingSignals : ℕ)
  | ack (numSignalReceived : ℕ)
  | total (numSignalReceived : ℕ)
deriving DecidableEq

/-- The variables of both processes, and what the kernel keeps for them: `parentSigusr1`,
`parentSigalrm`, `childSigusr1` and `childSigint` tell that the signal is pending. -/
structure State where
  parent : ParentPhase
  parentSigusr1 : Bool
  parentSigalrm : Bool
  alarm : Bool
  parentPendingAcks : ℕ
  parentPendingSigalrm : Bool
  numAcksReceived : ℕ
  child : ChildPhase
  childSigusr1 : Bool
  childSigint : Bool
  childPendingSignals : ℕ
  childPendingTermination : Bool
  numSignalReceived : ℕ
  lines : List Line
deriving DecidableEq

/-- Both processes are at their `sigsuspend`, and `alarm(1)` is set. -/
def start : State where
  parent := .suspended false
  parentSigusr1 := false
  parentSigalrm := false
  alarm := true
  parentPendingAcks := 0
  parentPendingSigalrm := false
  numAcksReceived := 0
  child := .suspended false
  childSigusr1 := false
  childSigint := false
  childPendingSignals := 0
  childPendingTermination := false
  numSignalReceived := 0
  lines := []

def parentAckHandler (s : State) : State :=
  { s with parentPendingAcks := s.parentPendingAcks + 1 }

def parentAlarmHandler (s : State) : State := { s with parentPendingSigalrm := true }

def childSignalHandler (s : State) : State :=
  { s with childPendingSignals := s.childPendingSignals + 1 }

def childSigintHandler (s : State) : State := { s with childPendingTermination := true }

/-- The first part of `parent_handle_pending_signals`. -/
def takeAcks (numSignalToSend : ℕ) (s : State) : State :=
  if s.parentPendingAcks > 0 then
    { s with
      numAcksReceived :=
        if s.numAcksReceived + s.parentPendingAcks > numSignalToSend then numSignalToSend
        else s.numAcksReceived + s.parentPendingAcks
      parentPendingAcks := 0 }
  else s

def sendSignal (numSignalToSend : ℕ) (s : State) : State :=
  if s.numAcksReceived = numSignalToSend then
    { s with parent := .exited, alarm := false, childSigint := true, lines := s.lines ++ [.allSent] }
  else if s.parentPendingSigalrm then
    let remainingSignals := numSignalToSend - s.numAcksReceived
    { s with
      parent := .suspended false
      parentPendingSigalrm := false
      lines := s.lines ++ [.remaining remainingSignals]
      childSigusr1 := s.childSigusr1 || 0 < remainingSignals
      alarm := true }
  else { s with parent := .suspended false }

def parentHandlePendingSignals (numSignalToSend : ℕ) (s : State) : State :=
  sendSignal numSignalToSend (takeAcks numSignalToSend s)

inductive Action where
  | alarmRings
  | parentAck
  | parentAlarm
  | parentReturns
  | parentHandles
  | childSignal
  | childSigint
  | childReturns
  | childCounts
  | childAcks
  | childEnds
deriving DecidableEq

def State.parentSuspended (s : State) : Prop := s.parent = .suspended false ∨ s.parent = .suspended true

def State.childSuspended (s : State) : Prop := s.child = .suspended false ∨ s.child = .suspended true

instance (s : State) : Decidable s.parentSuspended := instDecidableOr

instance (s : State) : Decidable s.childSuspended := instDecidableOr

/-- One step of either process or of the kernel. The loop of `child_handle_pending_signals` is
`childCounts` and `childAcks`, and its end is `childEnds`. -/
def step (numSignalToSend : ℕ) (s : State) : Action → Option State
  | .alarmRings =>
    if s.alarm then some { s with alarm := false, parentSigalrm := true } else none
  | .parentAck =>
    if s.parentSuspended ∧ s.parentSigusr1 then
      some (parentAckHandler { s with parent := .suspended true, parentSigusr1 := false })
    else none
  | .parentAlarm =>
    if s.parentSuspended ∧ s.parentSigalrm then
      some (parentAlarmHandler { s with parent := .suspended true, parentSigalrm := false })
    else none
  | .parentReturns => if s.parent = .suspended true then some { s with parent := .handling } else none
  | .parentHandles =>
    if s.parent = .handling then some (parentHandlePendingSignals numSignalToSend s) else none
  | .childSignal =>
    if s.childSuspended ∧ s.childSigusr1 then
      some (childSignalHandler { s with child := .suspended true, childSigusr1 := false })
    else none
  | .childSigint =>
    if s.childSuspended ∧ s.childSigint then
      some (childSigintHandler { s with child := .suspended true, childSigint := false })
    else none
  | .childReturns => if s.child = .suspended true then some { s with child := .looping } else none
  | .childCounts =>
    if s.child = .looping ∧ s.childPendingSignals > 0 then
      some { s with
        child := .acking
        childPendingSignals := s.childPendingSignals - 1
        numSignalReceived := s.numSignalReceived + 1
        lines := s.lines ++ [.ack (s.numSignalReceived + 1)] }
    else none
  | .childAcks =>
    if s.child = .acking then
      -- a signal to a process that has exited is lost
      some { s with
        child := .looping
        parentSigusr1 := s.parentSigusr1 || s.parent ≠ .exited }
    else none
  | .childEnds =>
    if s.child = .looping ∧ s.childPendingSignals = 0 then
      if s.childPendingTermination then
        some { s with child := .exited, lines := s.lines ++ [.total s.numSignalReceived] }
      else some { s with child := .suspended false }
    else none

inductive Reaches (numSignalToSend : ℕ) (allowed : State → Action → Prop) : State → Prop
  | start : Reaches numSignalToSend allowed start
  | step {s s' : State} {action : Action} (h : Reaches numSignalToSend allowed s)
    (hallowed : allowed s action) (hs : step numSignalToSend s action = some s') :
    Reaches numSignalToSend allowed s'

def AnyOrder (_ : State) (_ : Action) : Prop := True

def State.Settled (s : State) : Prop :=
  s.childSigusr1 = false ∧ s.childPendingSignals = 0 ∧ s.child ≠ .acking ∧ s.parentSigusr1 = false

def OnTime (s : State) (action : Action) : Prop :=
  action = .parentHandles → s.parentPendingSigalrm = true → s.Settled

instance (s : State) : Decidable s.Settled := instDecidableAnd

instance (s : State) (action : Action) : Decidable (AnyOrder s action) := isTrue trivial

instance (s : State) (action : Action) : Decidable (OnTime s action) :=
  inferInstanceAs (Decidable (_ → _ → _))

section Runs

variable (numSignalToSend : ℕ) (allowed : State → Action → Prop)
  [∀ s action, Decidable (allowed s action)]

def run : State → List Action → Option State
  | s, [] => some s
  | s, action :: actions =>
    if allowed s action then
      match step numSignalToSend s action with
      | none => none
      | some s' => run s' actions
    else none

end Runs

lemma Reaches.run {n : ℕ} {allowed : State → Action → Prop}
    [∀ s action, Decidable (allowed s action)] {s s' : State} {actions : List Action} (h : Reaches n allowed s)
    (hrun : Signals.run n allowed s actions = some s') : Reaches n allowed s' := by
  induction actions generalizing s with
  | nil =>
    obtain rfl := Option.some.inj hrun
    exact h
  | cons action actions ih =>
    simp only [Signals.run] at hrun
    split_ifs at hrun with hallowed
    cases hs : Signals.step n s action with
    | none =>
      rw [hs] at hrun
      cases hrun
    | some next =>
      rw [hs] at hrun
      exact ih (h.step hallowed hs) hrun

def oneSignal : List Action :=
  [.alarmRings, .parentAlarm, .parentReturns, .parentHandles, .childSignal, .childReturns,
    .childCounts, .childAcks, .childEnds, .parentAck, .parentReturns, .parentHandles]

def stopReceiver : List Action := [.childSigint, .childReturns, .childEnds]

example : (run 3 OnTime start (oneSignal ++ oneSignal ++ oneSignal ++ stopReceiver)).map State.lines =
    some [.remaining 3, .ack 1, .remaining 2, .ack 2, .remaining 1, .ack 3, .allSent, .total 3] := by
  decide

end SystemsLab.Signals
