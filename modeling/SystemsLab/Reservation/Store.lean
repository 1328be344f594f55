import SystemsLab.Reservation.Protocol
import SystemsLab.CLib.Numbers
import Mathlib.Logic.Function.Basic

namespace SystemsLab.Reservation

open CLib

def numUsers : ℕ := 10000
def numSeats : ℕ := 100
def clientsPerThread : ℕ := 1000
def hashedPasswordSize : ℕ := 128

/-- What the server relies on outside its own code: the number of cores, the descriptors that are
open before the first `accept`, the read ends of the notification pipes, and the password hash. -/
structure Config where
  nCores : ℕ
  pipeOut : ℕ → ℤ
  reserved : ℤ → Bool
  pipeOut_reserved : ∀ w < nCores, reserved (pipeOut w) = true
  pipeOut_ne : ∀ v < nCores, ∀ w < nCores, pipeOut v = pipeOut w → v = w
  argon2Hash : Bytes → Bytes → Bytes
  argon2Verify : Bytes → Bytes → Bool

structure User where
  username : Bytes
  hashedPassword : Bytes
  loggedIn : Bool

def defaultUser : User := ⟨[], [], false⟩

-- The entries of `users.array` below `users.size`.
def setupUsers : List User := []

def findUser (users : List User) (name : Bytes) : Option ℕ :=
  users.findIdx? (fun u => u.username == name)

-- `none` is the exit of the process when the capacity is reached.
def addUser (users : List User) (name hashed : Bytes) : Option (List User) :=
  if users.length ≥ numUsers then none else some (users ++ [⟨name, hashed, false⟩])

def hashPassword (C : Config) (salt password : Bytes) : Bytes :=
  cstr ((C.argon2Hash password salt).take (hashedPasswordSize - 1))

def validatePassword (C : Config) (password hashed : Bytes) : Bool :=
  C.argon2Verify hashed password

structure Seat where
  stats : SeatStats
  userWhoBooked : Option Bytes

def defaultSeats (i : ℕ) : Seat := ⟨⟨UInt64.ofNat (i + 1), 0, 0⟩, none⟩

def Seat.book (s : Seat) (name : Bytes) : Seat :=
  { stats := { s.stats with amountOfTimesBooked := s.stats.amountOfTimesBooked + 1 }
    userWhoBooked := some name }

def Seat.cancel (s : Seat) : Seat :=
  { stats := { s.stats with amountOfTimesCanceled := s.stats.amountOfTimesCanceled + 1 }
    userWhoBooked := none }

structure PollSet where
  fd : ℕ → ℤ
  activeUsers : ℕ → Option Bytes
  size : ℕ

def createPollSet (selfPipeFd : ℤ) : PollSet where
  fd := Function.update (fun _ => 0) 0 selfPipeFd
  activeUsers := fun _ => none
  size := 1

namespace PollSet

def fds (p : PollSet) : List ℤ := (List.range p.size).map p.fd

def findFd (p : PollSet) (fd : ℤ) : Option ℕ := (List.range p.size).find? (fun i => p.fd i == fd)

def add (p : PollSet) (fd : ℤ) : PollSet where
  fd := Function.update p.fd p.size fd
  activeUsers := Function.update p.activeUsers p.size none
  size := p.size + 1

def swap (p : PollSet) (i : ℕ) : PollSet :=
  let last := p.size - 1
  { fd := Function.update (Function.update p.fd i (p.fd last)) last (-1)
    activeUsers := Function.update (Function.update p.activeUsers i (p.activeUsers last)) last none
    size := p.size - 1 }

lemma swap_slot (p : PollSet) (i : ℕ) {j : ℕ} (hj : j < (p.swap i).size) :
    (p.swap i).fd j = p.fd (if j = i then p.size - 1 else j) ∧
      (p.swap i).activeUsers j = p.activeUsers (if j = i then p.size - 1 else j) := by
  have hlast : j ≠ p.size - 1 := hj.ne
  simp only [swap, Function.update_of_ne hlast]
  split_ifs with hi
  · rw [hi, Function.update_self, Function.update_self]
    exact ⟨rfl, rfl⟩
  · rw [Function.update_of_ne hi, Function.update_of_ne hi]
    exact ⟨rfl, rfl⟩

def setActiveUser (p : PollSet) (i : ℕ) (u : Option Bytes) : PollSet :=
  { p with activeUsers := Function.update p.activeUsers i u }

end PollSet

inductive SeatOp where
  | book (user : Bytes)
  | cancel (user : Bytes)
  deriving DecidableEq

/-- `opened` is the descriptor table of the process. `history` is a ghost: the successful book and
cancel-booking operations on each seat so far. -/
structure Data where
  users : List User
  seats : ℕ → Seat
  pollSets : ℕ → PollSet
  opened : ℤ → Bool
  history : ℕ → List SeatOp

namespace Data

def user (d : Data) (uid : ℕ) : User := d.users.getD uid defaultUser

def activeUser (d : Data) (w i : ℕ) : Option Bytes := (d.pollSets w).activeUsers i

def setLoggedIn (d : Data) (uid : ℕ) (b : Bool) : Data :=
  { d with users := d.users.modify uid fun u => { u with loggedIn := b } }

def setPollSet (d : Data) (w : ℕ) (p : PollSet) : Data :=
  { d with pollSets := Function.update d.pollSets w p }

def setActiveUser (d : Data) (w i : ℕ) (u : Option Bytes) : Data :=
  d.setPollSet w ((d.pollSets w).setActiveUser i u)

def setSeat (d : Data) (i : ℕ) (s : Seat) (o : SeatOp) : Data :=
  { d with
    seats := Function.update d.seats i s
    history := Function.update d.history i (d.history i ++ [o]) }

@[simp] lemma setSeat_seats (d : Data) (i : ℕ) (s : Seat) (o : SeatOp) :
    (d.setSeat i s o).seats = Function.update d.seats i s := rfl

@[simp] lemma setSeat_history (d : Data) (i : ℕ) (s : Seat) (o : SeatOp) :
    (d.setSeat i s o).history = Function.update d.history i (d.history i ++ [o]) := rfl

lemma setSeat_changes {d : Data} {i j : ℕ} {s : Seat} {o : SeatOp}
    (h : ((d.setSeat j s o).seats i).userWhoBooked ≠ (d.seats i).userWhoBooked) : i = j := by
  by_contra hij
  rw [setSeat_seats, Function.update_of_ne hij] at h
  exact h rfl

end Data

def initialData (C : Config) : Data where
  users := setupUsers
  seats := defaultSeats
  pollSets := fun w => createPollSet (C.pipeOut w)
  opened := C.reserved
  history := fun _ => []

lemma findUser_some {users : List User} {name : Bytes} {uid : ℕ}
    (h : findUser users name = some uid) : ∃ u, users[uid]? = some u ∧ u.username = name := by
  obtain ⟨hlt, hu, _⟩ := List.findIdx?_eq_some_iff_getElem.mp h
  exact ⟨users[uid], List.getElem?_eq_getElem hlt, by simpa using hu⟩

lemma findUser_none {users : List User} {name : Bytes} (h : findUser users name = none) :
    ∀ u ∈ users, u.username ≠ name := by
  intro u hu
  simpa using List.findIdx?_eq_none_iff.mp h u hu

lemma addUser_some {users users' : List User} {name hashed : Bytes}
    (h : addUser users name hashed = some users') : users' = users ++ [⟨name, hashed, false⟩] := by
  simp only [addUser] at h
  split at h <;> cases h
  rfl

lemma PollSet.findFd_some {p : PollSet} {fd : ℤ} {i : ℕ} (h : p.findFd fd = some i) :
    i < p.size ∧ p.fd i = fd := by
  obtain ⟨hfd, hlt, _⟩ := List.find?_range_eq_some.mp h
  exact ⟨by simpa using hlt, by simpa using hfd⟩

namespace Data

lemma user_eq {d : Data} {uid : ℕ} {u : User} (h : d.users[uid]? = some u) : d.user uid = u := by
  simp [user, h]

lemma getElem?_setLoggedIn (d : Data) (uid : ℕ) (b : Bool) (i : ℕ) :
    (d.setLoggedIn uid b).users[i]? =
      d.users[i]?.map fun u => if uid = i then { u with loggedIn := b } else u := by
  simp only [setLoggedIn, List.getElem?_modify]
  rfl

end Data

def parseSeatNumber (r : Request) : Option ℕ :=
  if r.hasData then
    let v := strtoull r.text
    if v.erange || v.rest == r.text || v.rest != [] || v.value < 1 || v.value > numSeats then none
    else some v.value
  else none

def requestMatchesActiveClient (r : Request) (active : Option Bytes) : Bool :=
  active.isSome && r.hasUsername && active == some r.user

lemma active_of_matches {r : Request} {active : Option Bytes}
    (h : requestMatchesActiveClient r active = true) : active = some r.user := by
  simp only [requestMatchesActiveClient, Bool.and_eq_true, beq_iff_eq] at h
  exact h.2

end SystemsLab.Reservation
