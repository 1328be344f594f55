import SystemsLab.CLib.Numbers
import SystemsLab.Streams.TypedQueue
import Mathlib.Algebra.Order.Ring.Int
import Mathlib.Data.List.Induction
import Mathlib.Logic.Function.Basic

/-! The users of a System V message queue (`week9/w9.c`): each has a process that sends and one that
receives. -/

namespace SystemsLab.MessageQueue

open CLib Streams

def ackType : ℤ := 1000000

/-- The data of a message, as `msgbuf` or as `msgbuf_ack`. -/
inductive Body
  | text (senderId : ℤ) (text : Bytes)
  | ack (timestamp : Bytes)
deriving DecidableEq

structure Message where
  msgtype : ℤ
  body : Body
deriving DecidableEq

def msgDataSize : ℕ := 520
def ackDataSize : ℕ := 512

/-- With the padding behind the text. -/
def Body.size : Body → ℕ
  | .text _ _ => msgDataSize
  | .ack _ => ackDataSize

/-- `sender_id` and `text` of a received `msgbuf`. -/
def Body.asMsgbuf : Body → ℤ × Bytes
  | .text senderId data => (senderId, data)
  | .ack timestamp => (Int.bmod (ofLeBytes (timestamp.take 4)) (2 ^ 32), timestamp.drop 4)

/-- `timestamp` of a received `msgbuf_ack`. -/
def Body.asAck : Body → Bytes
  | .text senderId data => leBytes 4 (senderId % 2 ^ 32).toNat ++ data
  | .ack timestamp => timestamp

inductive Received
  | removed
  | noMessage
  | tooBig
  | message (body : Body) (queue : List Message)

/-- `msgrcv` with `IPC_NOWAIT`, from a queue or from one that has been removed. -/
def msgrcv (size : ℕ) (msgtype : ℤ) : Option (List Message) → Received
  | none => .removed
  | some queue =>
    match takeFirst Message.msgtype msgtype queue with
    | none => .noMessage
    | some (msg, rest) => if msg.body.size > size then .tooBig else .message msg.body rest

/-- `msgsnd` with `IPC_NOWAIT`. -/
def msgsnd (full : Bool) (msg : Message) : Option (List Message) → Option (List Message)
  | none => none
  | some queue => if full || msg.msgtype ≤ 0 then none else some (queue ++ [msg])

def getId (input : Bytes) : ℤ := Int.bmod (strtoull input).value (2 ^ 32)

structure Ids where
  userId : ℤ
  receiverId : ℤ
  user_pos : 0 < userId
  receiver_pos : 0 < receiverId

def readIds (userInput receiverInput : Bytes) : Except Bytes Ids :=
  if h : getId userInput ≤ 0 ∨ getId receiverInput ≤ 0 then
    .error (ascii "User ID and receiver ID must be positive.\n")
  else
    .ok ⟨getId userInput, getId receiverInput, lt_of_not_ge fun hle => h (.inl hle),
      lt_of_not_ge fun hle => h (.inr hle)⟩

inductive ReceiverAt
  | checking
  | receiving
  | acking (senderId : ℤ)
  | reading
  | exited
deriving DecidableEq

inductive SenderAt
  | checking
  | typing
  | posting (line : Bytes)
  | ending
  | waiting
  | removing
  | exited
deriving DecidableEq

/-- Both processes of a user, and what the child has printed. `posted` and `refused` are ghosts: the
lines that have been sent, and the senders whose acks could not be sent. -/
structure User where
  receiver : ReceiverAt
  childExit : Bool
  childError : Bool
  sender : SenderAt
  parentExit : Bool
  parentError : Bool
  shown : List (ℤ × Bytes)
  notices : List Bytes
  posted : List Bytes
  refused : List ℤ

def User.start : User := ⟨.checking, false, false, .checking, false, false, [], [], [], []⟩

/-- What the calls of a step return: the time, the line that `getline` reads if there is one,
whether `errno` is set otherwise, whether the queue is full, whether a signal interrupts `waitpid`,
and whether `msgctl` fails. -/
structure Answers where
  now : Bytes
  input : Option Bytes
  readFails : Bool
  full : Bool
  interrupted : Bool
  removeFails : Bool

def User.childFails (user : User) : User := { user with childExit := true, childError := true }

abbrev Stepped := Option (List Message) × List Message × User

def childStep (ids : Ids) (answers : Answers) (queue : Option (List Message)) (user : User) : Stepped :=
  match user.receiver with
  | .checking =>
    (queue, [], { user with receiver := if user.childExit then .exited else .receiving })
  | .receiving =>
    match msgrcv msgDataSize ids.userId queue with
    | .message body rest =>
      (some rest, [], { user with
        receiver := .acking body.asMsgbuf.1
        shown := user.shown ++ [body.asMsgbuf] })
    | .noMessage => (queue, [], { user with receiver := .reading })
    | _ => (queue, [], { user.childFails with receiver := .reading })
  | .acking senderId =>
    match msgsnd answers.full ⟨ackType + senderId, .ack answers.now⟩ queue with
    | some queue =>
      (some queue, [⟨ackType + senderId, .ack answers.now⟩], { user with receiver := .reading })
    | none =>
      (queue, [], { user.childFails with
        receiver := .reading
        refused := user.refused ++ [senderId] })
  | .reading =>
    match msgrcv ackDataSize (ackType + ids.userId) queue with
    | .message body rest =>
      (some rest, [], { user with
        receiver := .checking
        notices := user.notices ++ [body.asAck] })
    | .noMessage => (queue, [], { user with receiver := .checking })
    | _ => (queue, [], { user.childFails with receiver := .checking })
  | .exited => (queue, [], user)

/-- What `snprintf` leaves of a line in `text`. -/
def textOf (line : Bytes) : Bytes := (cstr line).take (512 - 1)

def textMessage (ids : Ids) (line : Bytes) : Message :=
  ⟨ids.receiverId, .text ids.userId (textOf line)⟩

def parentStep (ids : Ids) (answers : Answers) (queue : Option (List Message)) (user : User) : Stepped :=
  match user.sender with
  | .checking =>
    (queue, [], { user with sender := if user.parentExit then .ending else .typing })
  | .typing =>
    match answers.input with
    | none =>
      (queue, [], { user with
        sender := .ending
        parentExit := true
        parentError := user.parentError || answers.readFails })
    | some line =>
      (queue, [], { user with
        sender :=
          if user.parentExit then .ending
          else if line.take 5 = ascii "quit\n" then .ending
          else .posting line })
  | .posting line =>
    match msgsnd answers.full (textMessage ids line) queue with
    | some queue =>
      (some queue, [textMessage ids line], { user with
        sender := .checking
        posted := user.posted ++ [line] })
    | none =>
      (queue, [], { user with sender := .checking, parentExit := true, parentError := true })
  | .ending => (queue, [], { user with sender := .waiting, childExit := true })
  | .waiting =>
    (queue, [], { user with
      sender := if user.receiver = .exited ∨ answers.interrupted then .removing else .waiting })
  | .removing =>
    if answers.removeFails then (queue, [], { user with sender := .exited, parentError := true })
    else (none, [], { user with sender := .exited })
  | .exited => (queue, [], user)

inductive Action
  | child (answers : Answers)
  | parent (answers : Answers)
  | interruptChild
  | interruptParent

def userStep (ids : Ids) (queue : Option (List Message)) (user : User) : Action → Stepped
  | .child answers => childStep ids answers queue user
  | .parent answers => parentStep ids answers queue user
  | .interruptChild => (queue, [], { user with childExit := true })
  | .interruptParent => (queue, [], { user with parentExit := true })

/-- The queue until it is removed, everything that has been sent, and the users. -/
structure State (U : Type) where
  queue : Option (List Message)
  log : List Message
  user : U → User

def State.start (U : Type) : State U := ⟨some [], [], fun _ => .start⟩

variable {U : Type} [DecidableEq U]

def step (ids : U → Ids) (s : State U) (u : U) (action : Action) : State U :=
  let (queue, sent, user) := userStep (ids u) s.queue (s.user u) action
  ⟨queue, s.log ++ sent, Function.update s.user u user⟩

inductive Reachable (ids : U → Ids) : State U → Prop
  | start : Reachable ids (State.start U)
  | step {s : State U} (h : Reachable ids s) (u : U) (action : Action) :
    Reachable ids (step ids s u action)

def run (ids : U → Ids) (actions : List (U × Action)) : State U :=
  actions.foldl (fun s a => step ids s a.1 a.2) (State.start U)

lemma reachable_run (ids : U → Ids) (actions : List (U × Action)) : Reachable ids (run ids actions) := by
  induction actions using List.reverseRecOn with
  | nil => exact .start
  | append_singleton actions a ih =>
    rw [run, List.foldl_append]
    exact ih.step a.1 a.2

end SystemsLab.MessageQueue
