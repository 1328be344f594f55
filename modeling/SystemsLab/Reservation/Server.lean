import SystemsLab.Reservation.Store
import SystemsLab.Threads.LockOrder

/-! The threads of the server, cut at their mutex operations. A control point is named after the
operation that the thread is about to perform there. -/

namespace SystemsLab.Reservation

open CLib Threads

inductive Thread (n : ℕ) where
  | main
  | worker (w : Fin n)
  deriving DecidableEq

inductive Mutex where
  | pollSet (w : ℕ)
  | array
  | user (uid : ℕ)
  | seat (i : ℕ)
  deriving DecidableEq

/-- What the system calls of one step return: the descriptors that `poll` reports (with the error
flags), the request that `receive_request` reads, whether `send_response` succeeds, the salt from
`getrandom`, and the descriptor from `accept`. -/
structure Oracle where
  ready : List (ℤ × Bool)
  request : Option Request
  sent : Bool
  salt : Bytes
  connfd : ℤ

-- The locals of `thread_func` while it serves a request: `slot` is the target of `active_user`.
structure Call where
  fd : ℤ
  request : Request
  slot : ℕ
  rest : List (ℤ × Bool)

inductive SeatAction where
  | book
  | cancelBooking
  deriving DecidableEq

inductive Kind where
  | login
  | logout
  | seat (a : SeatAction) (i : ℕ)
  | confirmBooking (wantsAvailable : Bool)
  deriving DecidableEq

inductive Point where
  | lockArray (k : Kind)
  | unlockArrayUnknown (k : Kind)
  | lockUser (k : Kind) (uid : ℕ)
  | unlockArray (k : Kind) (uid : ℕ)
  | unlockUser (uid : ℕ) (response : Response)
  | loginUnlockUser (uid : ℕ)
  | newLockUser (uid : ℕ)
  | newUnlockUser (uid : ℕ)
  | newUnlockArray (uid : ℕ)
  | saveActiveUser
  | logoutUnlockUser (uid : ℕ)
  | clearActiveUser
  | lockSeat (a : SeatAction) (uid i : ℕ)
  | unlockSeat (a : SeatAction) (uid i : ℕ) (code : Int32)
  | scanLock (wantsAvailable : Bool) (uid i : ℕ) (selected : List UInt64)
  | scanUnlock (wantsAvailable : Bool) (uid i : ℕ) (selected : List UInt64)
  | queryLock (i : ℕ)
  | queryUnlock (i : ℕ) (stats : SeatStats)

inductive RemovePoint where
  | lockPollSet
  | lockArray (i : ℕ) (name : Bytes)
  | unlockArrayUnknown (i : ℕ)
  | lockUser (i uid : ℕ)
  | unlockArray (i uid : ℕ)
  | unlockUser (i uid : ℕ)
  | close (i : ℕ)
  | swap (i : ℕ)
  | unlockPollSet

inductive MainPoint where
  | accepting
  | findLock (i : ℕ) (best : Option (ℕ × ℕ)) (connfd : ℤ)
  | findUnlock (i : ℕ) (best : Option (ℕ × ℕ)) (size : ℕ) (connfd : ℤ)
  | spin (connfd : ℤ)
  | addLock (j : ℕ) (connfd : ℤ)
  | addUnlockFull (j : ℕ) (connfd : ℤ)
  | addUnlock (j : ℕ) (connfd : ℤ)

inductive Pc where
  | top
  | snapped (locals : List ℤ)
  | polling (locals : List ℤ)
  | serve (ready : List (ℤ × Bool))
  | find (fd : ℤ) (r : Request) (rest : List (ℤ × Bool))
  | found (fd : ℤ) (r : Request) (slot : Option ℕ) (rest : List (ℤ × Bool))
  | handler (c : Call) (p : Point)
  | respond (c : Call) (response : Response)
  | remove (fd : ℤ) (rest : List (ℤ × Bool)) (p : RemovePoint)
  | main (p : MainPoint)

def Kind.notLoggedIn : Kind → Int32
  | .login => LoginErrorCode.activeUser.code
  | .logout => LogoutErrorCode.userNotLoggedIn.code
  | .seat .book _ => BookErrorCode.userNotLoggedIn.code
  | .seat .cancelBooking _ => CancelBookingErrorCode.userNotLoggedIn.code
  | .confirmBooking _ => ConfirmBookingErrorCode.userNotLoggedIn.code

def Kind.userUnknown : Kind → Int32
  | .logout => LogoutErrorCode.userNotFound.code
  | k => k.notLoggedIn

namespace Call

-- The part of `lock_logged_in_user` before its first lock.
def lockLoggedInUser (c : Call) (k : Kind) (active : Option Bytes) : Pc :=
  if requestMatchesActiveClient c.request active then .handler c (.lockArray k)
  else .respond c (setResponse k.notLoggedIn)

def handleLoginRequest (c : Call) (active : Option Bytes) : Pc :=
  if active.isSome then .respond c (setResponse LoginErrorCode.activeClient.code)
  else if !c.request.hasUsername then
    .respond c (setResponse LoginErrorCode.noUsernameAndPassword.code)
  else if !c.request.hasData then .respond c (setResponse LoginErrorCode.noPassword.code)
  else .handler c (.lockArray .login)

def handleBookRequest (c : Call) (active : Option Bytes) : Pc :=
  if !c.request.hasData then .respond c (setResponse BookErrorCode.noData.code)
  else match parseSeatNumber c.request with
    | none => .respond c (setResponse BookErrorCode.seatOutOfRange.code)
    | some n => c.lockLoggedInUser (.seat .book (n - 1)) active

def available : Bytes := ascii "available"
def booked : Bytes := ascii "booked"

def handleConfirmBookingRequest (c : Call) (active : Option Bytes) : Pc :=
  if !c.request.hasData then .respond c (setResponse ConfirmBookingErrorCode.noData.code)
  else
    let wantsAvailable := c.request.text == available
    let wantsBooked := c.request.text == booked
    if !wantsAvailable && !wantsBooked then
      .respond c (setResponse ConfirmBookingErrorCode.invalidData.code)
    else c.lockLoggedInUser (.confirmBooking wantsAvailable) active

def handleCancelBookingRequest (c : Call) (active : Option Bytes) : Pc :=
  if !c.request.hasData then .respond c (setResponse CancelBookingErrorCode.noData.code)
  else match parseSeatNumber c.request with
    | none => .respond c (setResponse CancelBookingErrorCode.seatOutOfRange.code)
    | some n => c.lockLoggedInUser (.seat .cancelBooking (n - 1)) active

def handleLogoutRequest (c : Call) : Pc :=
  if !c.request.hasUsername then .respond c (setResponse LogoutErrorCode.userNotFound.code)
  else .handler c (.lockArray .logout)

def handleQueryRequest (c : Call) : Pc :=
  if !c.request.hasData then .respond c (setResponse QueryErrorCode.noData.code)
  else match parseSeatNumber c.request with
    | none => .respond c (setResponse QueryErrorCode.seatOutOfRange.code)
    | some n => .handler c (.queryLock (n - 1))

def handleRequest (c : Call) (active : Option Bytes) : Pc :=
  if c.request.action = Action.login.code then c.handleLoginRequest active
  else if c.request.action = Action.book.code then c.handleBookRequest active
  else if c.request.action = Action.confirmBooking.code then c.handleConfirmBookingRequest active
  else if c.request.action = Action.cancelBooking.code then c.handleCancelBookingRequest active
  else if c.request.action = Action.logout.code then c.handleLogoutRequest
  else if c.request.action = Action.query.code then c.handleQueryRequest
  else .respond c (setResponse (-1))

-- The handlers once the mutex of the user is held and the array mutex is released.
def userLocked (C : Config) (c : Call) (k : Kind) (uid : ℕ) (active : Option Bytes) (d : Data) :
    Data × Point :=
  let u := d.user uid
  match k with
  | .login =>
    if u.loggedIn then (d, .unlockUser uid (setResponse LoginErrorCode.activeUser.code))
    else if !validatePassword C c.request.text u.hashedPassword then
      (d, .unlockUser uid (setResponse LoginErrorCode.incorrectPassword.code))
    else (d.setLoggedIn uid true, .loginUnlockUser uid)
  | .logout =>
    if !u.loggedIn || !requestMatchesActiveClient c.request active then
      (d, .unlockUser uid (setResponse LogoutErrorCode.userNotLoggedIn.code))
    else (d.setLoggedIn uid false, .logoutUnlockUser uid)
  | .seat a i =>
    if !u.loggedIn then (d, .unlockUser uid (setResponse k.notLoggedIn)) else (d, .lockSeat a uid i)
  | .confirmBooking b =>
    if !u.loggedIn then (d, .unlockUser uid (setResponse k.notLoggedIn))
    else (d, .scanLock b uid 0 [])

-- `handle_book_request` and `handle_cancel_booking_request` under the mutex of the seat.
def seatLocked (c : Call) (a : SeatAction) (uid i : ℕ) (d : Data) : Data × Point :=
  let s := d.seats i
  match a with
  | .book =>
    if s.userWhoBooked.isSome then (d, .unlockSeat a uid i BookErrorCode.seatUnavailable.code)
    else (d.setSeat i (s.book c.request.user) (.book c.request.user),
      .unlockSeat a uid i BookErrorCode.success.code)
  | .cancelBooking =>
    if s.userWhoBooked ≠ some c.request.user then
      (d, .unlockSeat a uid i CancelBookingErrorCode.seatNotBookedByUser.code)
    else (d.setSeat i s.cancel (.cancel c.request.user),
      .unlockSeat a uid i CancelBookingErrorCode.success.code)

def includes (c : Call) (wantsAvailable : Bool) (s : Seat) : Bool :=
  if wantsAvailable then s.userWhoBooked.isNone else s.userWhoBooked == some c.request.user

def seatsResponse (selected : List UInt64) : Response :=
  if selected = [] then setResponse ConfirmBookingErrorCode.success.code
  else
    { dataSize := UInt64.ofNat (8 * selected.length)
      code := ConfirmBookingErrorCode.success.code
      data := some (selected.flatMap fun n => leBytes 8 n.toNat) }

def statsResponse (s : SeatStats) : Response :=
  ⟨24, QueryErrorCode.success.code, some s.bytes⟩

def handlerCode (C : Config) (w : ℕ) (c : Call) (salt : Bytes) (d : Data) :
    Point → Outcome (Data × Pc)
  | .lockArray k =>
    match findUser d.users c.request.user with
    | some uid => .next (d, .handler c (.lockUser k uid))
    | none =>
      match k with
      | .login =>
        match addUser d.users c.request.user (hashPassword C salt c.request.text) with
        | none => .exit
        | some users => .next ({ d with users }, .handler c (.newLockUser d.users.length))
      | k => .next (d, .handler c (.unlockArrayUnknown k))
  | .unlockArrayUnknown k => .next (d, .respond c (setResponse k.userUnknown))
  | .lockUser k uid => .next (d, .handler c (.unlockArray k uid))
  | .unlockArray k uid =>
    let (d', p) := userLocked C c k uid (d.activeUser w c.slot) d
    .next (d', .handler c p)
  | .unlockUser _ response => .next (d, .respond c response)
  | .loginUnlockUser _ => .next (d, .handler c .saveActiveUser)
  | .newLockUser uid => .next (d.setLoggedIn uid true, .handler c (.newUnlockUser uid))
  | .newUnlockUser uid => .next (d, .handler c (.newUnlockArray uid))
  | .newUnlockArray _ => .next (d, .handler c .saveActiveUser)
  | .saveActiveUser =>
    .next (d.setActiveUser w c.slot (some c.request.user),
      .respond c (setResponse LoginErrorCode.success.code))
  | .logoutUnlockUser _ => .next (d, .handler c .clearActiveUser)
  | .clearActiveUser =>
    .next (d.setActiveUser w c.slot none, .respond c (setResponse LogoutErrorCode.success.code))
  | .lockSeat a uid i =>
    let (d', p) := seatLocked c a uid i d
    .next (d', .handler c p)
  | .unlockSeat _ uid _ code => .next (d, .handler c (.unlockUser uid (setResponse code)))
  | .scanLock b uid i selected =>
    let s := d.seats i
    .next (d, .handler c (.scanUnlock b uid i
      (if includes c b s then selected ++ [s.stats.id] else selected)))
  | .scanUnlock b uid i selected =>
    if i + 1 < numSeats then .next (d, .handler c (.scanLock b uid (i + 1) selected))
    else .next (d, .handler c (.unlockUser uid (seatsResponse selected)))
  | .queryLock i => .next (d, .handler c (.queryUnlock i (d.seats i).stats))
  | .queryUnlock _ stats => .next (d, .respond c (statsResponse stats))

end Call

-- `remove_fd_from_pollset`, with `remove_from_pollset` and `deactivate_user`.
def removeCode (w : ℕ) (fd : ℤ) (rest : List (ℤ × Bool)) (d : Data) : RemovePoint → Data × Pc
  | .lockPollSet =>
    match (d.pollSets w).findFd fd with
    | none => (d, .remove fd rest .unlockPollSet)
    | some i =>
      match d.activeUser w i with
      | none => (d, .remove fd rest (.close i))
      | some name => (d, .remove fd rest (.lockArray i name))
  | .lockArray i name =>
    match findUser d.users name with
    | none => (d, .remove fd rest (.unlockArrayUnknown i))
    | some uid => (d, .remove fd rest (.lockUser i uid))
  | .unlockArrayUnknown i => (d, .remove fd rest (.close i))
  | .lockUser i uid => (d, .remove fd rest (.unlockArray i uid))
  | .unlockArray i uid => (d.setLoggedIn uid false, .remove fd rest (.unlockUser i uid))
  | .unlockUser i _ => (d, .remove fd rest (.close i))
  | .close i =>
    ({ d.setActiveUser w i none with opened := Function.update d.opened ((d.pollSets w).fd i) false },
      .remove fd rest (.swap i))
  | .swap i => (d.setPollSet w ((d.pollSets w).swap i), .remove fd rest .unlockPollSet)
  | .unlockPollSet => (d, .serve rest)

-- `thread_func`. A `poll` that EINTR interrupts reports no descriptor.
def workerCode (C : Config) (w : ℕ) (o : Oracle) (d : Data) : Pc → Outcome (Data × Pc)
  | .top => .next (d, .snapped (d.pollSets w).fds)
  | .snapped locals => .next (d, .polling locals)
  | .polling locals =>
    if (o.ready.map Prod.fst).isSublist locals then .next (d, .serve o.ready) else .stuck
  | .serve [] => .next (d, .top)
  | .serve ((fd, failed) :: rest) =>
    if fd = C.pipeOut w then .next (d, .serve rest)
    else if failed then .next (d, .remove fd rest .lockPollSet)
    else
      match o.request with
      | none => .next (d, .remove fd rest .lockPollSet)
      | some r => .next (d, .find fd r rest)
  | .find fd r rest => .next (d, .found fd r ((d.pollSets w).findFd fd) rest)
  | .found _ _ none rest => .next (d, .serve rest)
  | .found fd r (some slot) rest =>
    .next (d, Call.handleRequest ⟨fd, r, slot, rest⟩ (d.activeUser w slot))
  | .handler c p => c.handlerCode C w o.salt d p
  | .respond c _ =>
    if o.sent then .next (d, .serve c.rest) else .next (d, .remove c.fd c.rest .lockPollSet)
  | .remove fd rest p => .next (removeCode w fd rest d p)
  | .main _ => .stuck

-- The loop of `find_suitable_pollset`, repeated by `main` while it returns -1.
def findNext (n i : ℕ) (best : Option (ℕ × ℕ)) (connfd : ℤ) : MainPoint :=
  if i < n then .findLock i best connfd
  else match best with
    | none => .spin connfd
    | some (j, _) => .addLock j connfd

def better (best : Option (ℕ × ℕ)) (i size : ℕ) : Option (ℕ × ℕ) :=
  if size < clientsPerThread then
    match best with
    | none => some (i, size)
    | some (j, minSize) => if size < minSize then some (i, size) else some (j, minSize)
  else best

def mainCode (n : ℕ) (o : Oracle) (d : Data) : MainPoint → Outcome (Data × MainPoint)
  | .accepting =>
    if d.opened o.connfd then .stuck
    else .next ({ d with opened := Function.update d.opened o.connfd true },
      findNext n 0 none o.connfd)
  | .findLock i best connfd => .next (d, .findUnlock i best (d.pollSets i).size connfd)
  | .findUnlock i best size connfd => .next (d, findNext n (i + 1) (better best i size) connfd)
  | .spin connfd => .next (d, findNext n 0 none connfd)
  | .addLock j connfd =>
    if (d.pollSets j).size ≥ clientsPerThread then .next (d, .addUnlockFull j connfd)
    else .next (d.setPollSet j ((d.pollSets j).add connfd), .addUnlock j connfd)
  | .addUnlockFull _ connfd =>
    .next ({ d with opened := Function.update d.opened connfd false }, .accepting)
  | .addUnlock _ _ => .next (d, .accepting)

def Point.op : Point → Op Mutex
  | lockArray _ => .lock .array
  | unlockArrayUnknown _ => .unlock .array
  | lockUser _ uid => .lock (.user uid)
  | unlockArray _ _ => .unlock .array
  | unlockUser uid _ => .unlock (.user uid)
  | loginUnlockUser uid => .unlock (.user uid)
  | newLockUser uid => .lock (.user uid)
  | newUnlockUser uid => .unlock (.user uid)
  | newUnlockArray _ => .unlock .array
  | saveActiveUser => .internal
  | logoutUnlockUser uid => .unlock (.user uid)
  | clearActiveUser => .internal
  | lockSeat _ _ i => .lock (.seat i)
  | unlockSeat _ _ i _ => .unlock (.seat i)
  | scanLock _ _ i _ => .lock (.seat i)
  | scanUnlock _ _ i _ => .unlock (.seat i)
  | queryLock i => .lock (.seat i)
  | queryUnlock i _ => .unlock (.seat i)

def RemovePoint.op (w : ℕ) : RemovePoint → Op Mutex
  | lockPollSet => .lock (.pollSet w)
  | lockArray _ _ => .lock .array
  | unlockArrayUnknown _ => .unlock .array
  | lockUser _ uid => .lock (.user uid)
  | unlockArray _ _ => .unlock .array
  | unlockUser _ uid => .unlock (.user uid)
  | close _ => .internal
  | swap _ => .internal
  | unlockPollSet => .unlock (.pollSet w)

def MainPoint.op : MainPoint → Op Mutex
  | accepting => .internal
  | findLock i _ _ => .lock (.pollSet i)
  | findUnlock i _ _ _ => .unlock (.pollSet i)
  | spin _ => .internal
  | addLock j _ => .lock (.pollSet j)
  | addUnlockFull j _ => .unlock (.pollSet j)
  | addUnlock j _ => .unlock (.pollSet j)

def Pc.op (w : ℕ) : Pc → Op Mutex
  | top => .lock (.pollSet w)
  | snapped _ => .unlock (.pollSet w)
  | find _ _ _ => .lock (.pollSet w)
  | found _ _ _ _ => .unlock (.pollSet w)
  | handler _ p => p.op
  | remove _ _ p => p.op w
  | _ => .internal

def server (C : Config) : Program (Thread C.nCores) Mutex Pc Data Oracle where
  op
    | .main, .main p => p.op
    | .main, _ => .internal
    | .worker w, pc => pc.op w
  code
    | .main, .main p, o, d =>
      match mainCode C.nCores o d p with
      | .next (d', p') => .next (d', .main p')
      | .stuck => .stuck
      | .exit => .exit
    | .main, _, _, _ => .stuck
    | .worker w, pc, o, d => workerCode C w o d pc

def initialPc {n : ℕ} : Thread n → Pc
  | .main => .main .accepting
  | .worker _ => .top

abbrev Server (C : Config) := State (Thread C.nCores) Mutex Pc Data

abbrev initialState (C : Config) : Server C := Program.start (initialData C) initialPc

def Reachable (C : Config) : Server C → Prop := (server C).Reachable (initialState C)

def after (C : Config) (l : List (Thread C.nCores × Oracle)) : Server C :=
  ((server C).run (initialState C) l).getD (initialState C)

lemma reachable_after (C : Config) (l : List (Thread C.nCores × Oracle)) :
    Reachable C (after C l) := by
  rw [after]
  cases h : (server C).run (initialState C) l with
  | none => exact .init
  | some s => exact Program.Reachable.run .init h

section OneCore

def oneCore : Config where
  nCores := 1
  pipeOut _ := 3
  reserved fd := 0 ≤ fd && fd ≤ 4
  pipeOut_reserved _ _ := rfl
  pipeOut_ne v hv w hw _ := by omega
  argon2Hash password _ := password
  argon2Verify hashed password := hashed == password

def anyOracle : Oracle := ⟨[], none, true, [], 7⟩
def readable : Oracle := { anyOracle with ready := [(7, false)] }
def receiving (r : Request) : Oracle := { anyOracle with request := some r }

def loginRequest : Request := ⟨1, 1, Action.login.code, some [97, 0], some [98, 0]⟩
def bookRequest : Request := ⟨1, 1, Action.book.code, some [97, 0], some [49, 0]⟩
def cancelRequest : Request := ⟨1, 1, Action.cancelBooking.code, some [97, 0], some [49, 0]⟩

def loginRun : List (Thread 1 × Oracle) :=
  List.replicate 5 (.main, anyOracle) ++
    ([anyOracle, anyOracle, readable, receiving loginRequest] ++ List.replicate 8 anyOracle).map
      fun o => (.worker 0, o)

def bookRun : List (Thread 1 × Oracle) :=
  loginRun ++ (List.replicate 3 anyOracle ++ [readable, receiving bookRequest] ++
    List.replicate 5 anyOracle).map fun o => (.worker 0, o)

def cancelRun : List (Thread 1 × Oracle) :=
  bookRun ++ (List.replicate 7 anyOracle ++ [readable, receiving cancelRequest] ++
    List.replicate 9 anyOracle).map fun o => (.worker 0, o)

end OneCore

end SystemsLab.Reservation
