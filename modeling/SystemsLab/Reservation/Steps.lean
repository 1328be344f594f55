import SystemsLab.Reservation.Server

namespace SystemsLab.Reservation

open CLib Threads

/-- Why a handler that holds the mutex of the user `u` gives up, and with which code. -/
inductive Kind.Refused (C : Config) (r : Request) (active : Option Bytes) (u : User) :
    Kind → Int32 → Prop
  | activeUser (hl : u.loggedIn = true) :
      Refused C r active u .login LoginErrorCode.activeUser.code
  | incorrectPassword (hl : u.loggedIn = false)
      (hv : validatePassword C r.text u.hashedPassword = false) :
      Refused C r active u .login LoginErrorCode.incorrectPassword.code
  | logout (hl : u.loggedIn = false ∨ requestMatchesActiveClient r active = false) :
      Refused C r active u .logout LogoutErrorCode.userNotLoggedIn.code
  | seat {a : SeatAction} {i : ℕ} (hl : u.loggedIn = false) :
      Refused C r active u (.seat a i) (Kind.seat a i).notLoggedIn
  | confirmBooking {b : Bool} (hl : u.loggedIn = false) :
      Refused C r active u (.confirmBooking b) (Kind.confirmBooking b).notLoggedIn

lemma Kind.notLoggedIn_ne_zero (k : Kind) : k.notLoggedIn ≠ 0 := by
  cases k with
  | seat a i =>
    cases a with
    | book => exact (by decide : BookErrorCode.userNotLoggedIn.code ≠ 0)
    | cancelBooking => exact (by decide : CancelBookingErrorCode.userNotLoggedIn.code ≠ 0)
  | confirmBooking b => exact (by decide : ConfirmBookingErrorCode.userNotLoggedIn.code ≠ 0)
  | _ => decide

lemma Kind.Refused.code_ne_zero {C : Config} {r : Request} {active : Option Bytes} {u : User}
    {k : Kind} {code : Int32} (h : k.Refused C r active u code) : code ≠ 0 := by
  cases h with
  | seat | confirmBooking => exact notLoggedIn_ne_zero _
  | _ => decide

inductive HandlerStep (C : Config) (w : ℕ) (c : Call) (salt : Bytes) (d : Data) :
    Point → Data → Pc → Prop
  | known {k : Kind} {uid : ℕ} (hu : findUser d.users c.request.user = some uid) :
      HandlerStep C w c salt d (.lockArray k) d (.handler c (.lockUser k uid))
  | create (hu : findUser d.users c.request.user = none) :
      HandlerStep C w c salt d (.lockArray .login)
        { d with users := d.users ++
          [⟨c.request.user, hashPassword C salt c.request.text, false⟩] }
        (.handler c (.newLockUser d.users.length))
  | unknown {k : Kind} (hk : k ≠ .login) (hu : findUser d.users c.request.user = none) :
      HandlerStep C w c salt d (.lockArray k) d (.handler c (.unlockArrayUnknown k))
  | unlockArrayUnknown (k : Kind) :
      HandlerStep C w c salt d (.unlockArrayUnknown k) d (.respond c (setResponse k.userUnknown))
  | lockUser (k : Kind) (uid : ℕ) :
      HandlerStep C w c salt d (.lockUser k uid) d (.handler c (.unlockArray k uid))
  | refuse {k : Kind} {uid : ℕ} {code : Int32}
      (hr : k.Refused C c.request (d.activeUser w c.slot) (d.user uid) code) :
      HandlerStep C w c salt d (.unlockArray k uid) d
        (.handler c (.unlockUser uid (setResponse code)))
  | verify {uid : ℕ} (hl : (d.user uid).loggedIn = false)
      (hv : validatePassword C c.request.text (d.user uid).hashedPassword = true) :
      HandlerStep C w c salt d (.unlockArray .login uid) (d.setLoggedIn uid true)
        (.handler c (.loginUnlockUser uid))
  | logout {uid : ℕ} (hl : (d.user uid).loggedIn = true)
      (hm : requestMatchesActiveClient c.request (d.activeUser w c.slot) = true) :
      HandlerStep C w c salt d (.unlockArray .logout uid) (d.setLoggedIn uid false)
        (.handler c (.logoutUnlockUser uid))
  | seat {a : SeatAction} {i uid : ℕ} (hl : (d.user uid).loggedIn = true) :
      HandlerStep C w c salt d (.unlockArray (.seat a i) uid) d (.handler c (.lockSeat a uid i))
  | scan {b : Bool} {uid : ℕ} (hl : (d.user uid).loggedIn = true) :
      HandlerStep C w c salt d (.unlockArray (.confirmBooking b) uid) d
        (.handler c (.scanLock b uid 0 []))
  | unlockUser (uid : ℕ) (response : Response) :
      HandlerStep C w c salt d (.unlockUser uid response) d (.respond c response)
  | loginUnlockUser (uid : ℕ) :
      HandlerStep C w c salt d (.loginUnlockUser uid) d (.handler c .saveActiveUser)
  | newLockUser (uid : ℕ) :
      HandlerStep C w c salt d (.newLockUser uid) (d.setLoggedIn uid true)
        (.handler c (.newUnlockUser uid))
  | newUnlockUser (uid : ℕ) :
      HandlerStep C w c salt d (.newUnlockUser uid) d (.handler c (.newUnlockArray uid))
  | newUnlockArray (uid : ℕ) :
      HandlerStep C w c salt d (.newUnlockArray uid) d (.handler c .saveActiveUser)
  | saveActiveUser :
      HandlerStep C w c salt d .saveActiveUser (d.setActiveUser w c.slot (some c.request.user))
        (.respond c (setResponse LoginErrorCode.success.code))
  | logoutUnlockUser (uid : ℕ) :
      HandlerStep C w c salt d (.logoutUnlockUser uid) d (.handler c .clearActiveUser)
  | clearActiveUser :
      HandlerStep C w c salt d .clearActiveUser (d.setActiveUser w c.slot none)
        (.respond c (setResponse LogoutErrorCode.success.code))
  | seatUnavailable {uid i : ℕ} (hb : (d.seats i).userWhoBooked ≠ none) :
      HandlerStep C w c salt d (.lockSeat .book uid i) d
        (.handler c (.unlockSeat .book uid i BookErrorCode.seatUnavailable.code))
  | book {uid i : ℕ} (hb : (d.seats i).userWhoBooked = none) :
      HandlerStep C w c salt d (.lockSeat .book uid i)
        (d.setSeat i ((d.seats i).book c.request.user) (.book c.request.user))
        (.handler c (.unlockSeat .book uid i BookErrorCode.success.code))
  | seatNotBooked {uid i : ℕ} (hb : (d.seats i).userWhoBooked ≠ some c.request.user) :
      HandlerStep C w c salt d (.lockSeat .cancelBooking uid i) d
        (.handler c (.unlockSeat .cancelBooking uid i
          CancelBookingErrorCode.seatNotBookedByUser.code))
  | cancel {uid i : ℕ} (hb : (d.seats i).userWhoBooked = some c.request.user) :
      HandlerStep C w c salt d (.lockSeat .cancelBooking uid i)
        (d.setSeat i (d.seats i).cancel (.cancel c.request.user))
        (.handler c (.unlockSeat .cancelBooking uid i CancelBookingErrorCode.success.code))
  | unlockSeat (a : SeatAction) (uid i : ℕ) (code : Int32) :
      HandlerStep C w c salt d (.unlockSeat a uid i code) d
        (.handler c (.unlockUser uid (setResponse code)))
  | scanLock (b : Bool) (uid i : ℕ) (selected : List UInt64) :
      HandlerStep C w c salt d (.scanLock b uid i selected) d
        (.handler c (.scanUnlock b uid i
          (if c.includes b (d.seats i) then selected ++ [(d.seats i).stats.id] else selected)))
  | scanNext {b : Bool} {uid i : ℕ} {selected : List UInt64} (hi : i + 1 < numSeats) :
      HandlerStep C w c salt d (.scanUnlock b uid i selected) d
        (.handler c (.scanLock b uid (i + 1) selected))
  | scanEnd {b : Bool} {uid i : ℕ} {selected : List UInt64} (hi : ¬ i + 1 < numSeats) :
      HandlerStep C w c salt d (.scanUnlock b uid i selected) d
        (.handler c (.unlockUser uid (Call.seatsResponse selected)))
  | queryLock (i : ℕ) :
      HandlerStep C w c salt d (.queryLock i) d (.handler c (.queryUnlock i (d.seats i).stats))
  | queryUnlock (i : ℕ) (stats : SeatStats) :
      HandlerStep C w c salt d (.queryUnlock i stats) d
        (.respond c (Call.statsResponse stats))

section Handler

variable {C : Config} {w : ℕ} {c : Call} {salt : Bytes} {d : Data}

lemma userLocked_step (k : Kind) (uid : ℕ) :
    HandlerStep C w c salt d (.unlockArray k uid)
      (c.userLocked C k uid (d.activeUser w c.slot) d).1
      (.handler c (c.userLocked C k uid (d.activeUser w c.slot) d).2) := by
  simp only [Call.userLocked]
  cases k with
  | login =>
    simp only
    split_ifs with hl hv
    · exact .refuse (.activeUser hl)
    · exact .refuse (.incorrectPassword (by simpa using hl) (by simpa using hv))
    · exact .verify (by simpa using hl) (by simpa using hv)
  | logout =>
    simp only
    split_ifs with h
    · exact .refuse (.logout (by simpa using h))
    · simp only [Bool.or_eq_true, Bool.not_eq_true', not_or, Bool.not_eq_false] at h
      exact .logout h.1 h.2
  | seat a i =>
    simp only
    split_ifs with h
    · exact .refuse (.seat (by simpa using h))
    · exact .seat (by simpa using h)
  | confirmBooking b =>
    simp only
    split_ifs with h
    · exact .refuse (.confirmBooking (by simpa using h))
    · exact .scan (by simpa using h)

lemma seatLocked_step (a : SeatAction) (uid i : ℕ) :
    HandlerStep C w c salt d (.lockSeat a uid i) (c.seatLocked a uid i d).1
      (.handler c (c.seatLocked a uid i d).2) := by
  simp only [Call.seatLocked]
  cases a with
  | book =>
    simp only
    split_ifs with h
    · exact .seatUnavailable (by simpa [Option.isSome_iff_ne_none] using h)
    · exact .book (by simpa using h)
  | cancelBooking =>
    simp only
    split_ifs with h
    · exact .seatNotBooked h
    · exact .cancel (by simpa using h)

lemma handlerCode_step {d' : Data} {p : Point} {pc : Pc}
    (h : c.handlerCode C w salt d p = .next (d', pc)) : HandlerStep C w c salt d p d' pc := by
  cases p with
  | lockArray k =>
    simp only [Call.handlerCode] at h
    split at h
    · rename_i uid hu
      cases h
      exact .known hu
    · rename_i hu
      split at h
      · split at h <;> cases h
        rename_i users hadd
        rw [addUser_some hadd]
        exact .create hu
      · rename_i hk
        cases h
        exact .unknown hk hu
  | unlockArray k uid =>
    simp only [Call.handlerCode, Outcome.next.injEq, Prod.mk.injEq] at h
    obtain ⟨rfl, rfl⟩ := h
    exact userLocked_step k uid
  | lockSeat a uid i =>
    simp only [Call.handlerCode, Outcome.next.injEq, Prod.mk.injEq] at h
    obtain ⟨rfl, rfl⟩ := h
    exact seatLocked_step a uid i
  | scanUnlock b uid i selected =>
    simp only [Call.handlerCode] at h
    split at h <;> cases h
    · exact .scanNext ‹_›
    · exact .scanEnd ‹_›
  | _ =>
    cases h
    constructor

lemma HandlerStep.call {d' : Data} {p : Point} {pc : Pc} (h : HandlerStep C w c salt d p d' pc) :
    (∃ p', pc = .handler c p') ∨ ∃ response, pc = .respond c response := by
  cases h with
  | unlockArrayUnknown | unlockUser | saveActiveUser | clearActiveUser | queryUnlock =>
    exact .inr ⟨_, rfl⟩
  | _ => exact .inl ⟨_, rfl⟩

end Handler

/-- `remove_fd_from_pollset` on its way to the next descriptor. -/
inductive RemoveStep (w : ℕ) (fd : ℤ) (rest : List (ℤ × Bool)) (d : Data) :
    RemovePoint → Data → Pc → Prop
  | missing (hi : (d.pollSets w).findFd fd = none) :
      RemoveStep w fd rest d .lockPollSet d (.remove fd rest .unlockPollSet)
  | idle {i : ℕ} (hi : (d.pollSets w).findFd fd = some i) (ha : d.activeUser w i = none) :
      RemoveStep w fd rest d .lockPollSet d (.remove fd rest (.close i))
  | active {i : ℕ} {name : Bytes} (hi : (d.pollSets w).findFd fd = some i)
      (ha : d.activeUser w i = some name) :
      RemoveStep w fd rest d .lockPollSet d (.remove fd rest (.lockArray i name))
  | unknown {i : ℕ} {name : Bytes} (hu : findUser d.users name = none) :
      RemoveStep w fd rest d (.lockArray i name) d (.remove fd rest (.unlockArrayUnknown i))
  | known {i uid : ℕ} {name : Bytes} (hu : findUser d.users name = some uid) :
      RemoveStep w fd rest d (.lockArray i name) d (.remove fd rest (.lockUser i uid))
  | unlockArrayUnknown (i : ℕ) :
      RemoveStep w fd rest d (.unlockArrayUnknown i) d (.remove fd rest (.close i))
  | lockUser (i uid : ℕ) :
      RemoveStep w fd rest d (.lockUser i uid) d (.remove fd rest (.unlockArray i uid))
  | unlockArray (i uid : ℕ) :
      RemoveStep w fd rest d (.unlockArray i uid) (d.setLoggedIn uid false)
        (.remove fd rest (.unlockUser i uid))
  | unlockUser (i uid : ℕ) :
      RemoveStep w fd rest d (.unlockUser i uid) d (.remove fd rest (.close i))
  | close (i : ℕ) :
      RemoveStep w fd rest d (.close i)
        { d.setActiveUser w i none with
          opened := Function.update d.opened ((d.pollSets w).fd i) false }
        (.remove fd rest (.swap i))
  | swap (i : ℕ) :
      RemoveStep w fd rest d (.swap i) (d.setPollSet w ((d.pollSets w).swap i))
        (.remove fd rest .unlockPollSet)
  | unlockPollSet : RemoveStep w fd rest d .unlockPollSet d (.serve rest)

lemma removeCode_step (w : ℕ) (fd : ℤ) (rest : List (ℤ × Bool)) (d : Data) (p : RemovePoint) :
    RemoveStep w fd rest d p (removeCode w fd rest d p).1 (removeCode w fd rest d p).2 := by
  cases p with
  | lockPollSet =>
    simp only [removeCode]
    split
    · exact .missing ‹_›
    · split
      · exact .idle ‹_› ‹_›
      · exact .active ‹_› ‹_›
  | lockArray i name =>
    simp only [removeCode]
    split
    · exact .unknown ‹_›
    · exact .known ‹_›
  | _ => constructor

inductive WorkerStep (C : Config) (w : ℕ) (o : Oracle) (d : Data) : Pc → Data → Pc → Prop
  | top : WorkerStep C w o d .top d (.snapped (d.pollSets w).fds)
  | snapped (locals : List ℤ) : WorkerStep C w o d (.snapped locals) d (.polling locals)
  | poll {locals : List ℤ} (hr : (o.ready.map Prod.fst).Sublist locals) :
      WorkerStep C w o d (.polling locals) d (.serve o.ready)
  | again : WorkerStep C w o d (.serve []) d .top
  | pipe {fd : ℤ} {failed : Bool} {rest : List (ℤ × Bool)} (hfd : fd = C.pipeOut w) :
      WorkerStep C w o d (.serve ((fd, failed) :: rest)) d (.serve rest)
  | hangUp {fd : ℤ} {failed : Bool} {rest : List (ℤ × Bool)} (hfd : fd ≠ C.pipeOut w)
      (hf : failed = true ∨ o.request = none) :
      WorkerStep C w o d (.serve ((fd, failed) :: rest)) d (.remove fd rest .lockPollSet)
  | receive {fd : ℤ} {r : Request} {rest : List (ℤ × Bool)} (hfd : fd ≠ C.pipeOut w)
      (hr : o.request = some r) :
      WorkerStep C w o d (.serve ((fd, false) :: rest)) d (.find fd r rest)
  | find (fd : ℤ) (r : Request) (rest : List (ℤ × Bool)) :
      WorkerStep C w o d (.find fd r rest) d (.found fd r ((d.pollSets w).findFd fd) rest)
  | missing (fd : ℤ) (r : Request) (rest : List (ℤ × Bool)) :
      WorkerStep C w o d (.found fd r none rest) d (.serve rest)
  | enter (fd : ℤ) (r : Request) (slot : ℕ) (rest : List (ℤ × Bool)) :
      WorkerStep C w o d (.found fd r (some slot) rest) d
        (Call.handleRequest ⟨fd, r, slot, rest⟩ (d.activeUser w slot))
  | handler {c : Call} {p : Point} {d' : Data} {pc : Pc}
      (h : HandlerStep C w c o.salt d p d' pc) : WorkerStep C w o d (.handler c p) d' pc
  | sent {c : Call} {response : Response} (hs : o.sent = true) :
      WorkerStep C w o d (.respond c response) d (.serve c.rest)
  | unsent {c : Call} {response : Response} (hs : o.sent = false) :
      WorkerStep C w o d (.respond c response) d (.remove c.fd c.rest .lockPollSet)
  | remove {fd : ℤ} {rest : List (ℤ × Bool)} {p : RemovePoint} {d' : Data} {pc : Pc}
      (h : RemoveStep w fd rest d p d' pc) : WorkerStep C w o d (.remove fd rest p) d' pc

lemma workerCode_step {C : Config} {w : ℕ} {o : Oracle} {d d' : Data} {pc pc' : Pc}
    (h : workerCode C w o d pc = .next (d', pc')) : WorkerStep C w o d pc d' pc' := by
  cases pc with
  | polling locals =>
    simp only [workerCode] at h
    split at h <;> cases h
    rename_i hr
    exact .poll (by simpa using hr)
  | serve ready =>
    cases ready with
    | nil =>
      cases h
      exact .again
    | cons x rest =>
      obtain ⟨fd, failed⟩ := x
      simp only [workerCode] at h
      split_ifs at h with hfd hf
      · cases h
        exact .pipe hfd
      · cases h
        exact .hangUp hfd (.inl hf)
      · obtain rfl : failed = false := by simpa using hf
        split at h <;> cases h
        · exact .hangUp hfd (.inr ‹_›)
        · exact .receive hfd ‹_›
  | found fd r slot rest =>
    cases slot <;> cases h
    · exact .missing ..
    · exact .enter ..
  | handler c p => exact .handler (handlerCode_step h)
  | respond c response =>
    simp only [workerCode] at h
    split at h <;> cases h
    · exact .sent ‹_›
    · exact .unsent (by simpa using ‹¬ o.sent = true›)
  | remove fd rest p =>
    simp only [workerCode, Outcome.next.injEq] at h
    have hr := removeCode_step w fd rest d p
    rw [h] at hr
    exact .remove hr
  | main p => cases h
  | _ =>
    cases h
    constructor

end SystemsLab.Reservation
