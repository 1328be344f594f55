import SystemsLab.Reservation.Facts

namespace SystemsLab.Reservation

open CLib Threads

structure PollOk (C : Config) (d : Data) (w : ℕ) : Prop where
  pos : 0 < (d.pollSets w).size
  pipe : (d.pollSets w).fd 0 = C.pipeOut w
  idlePipe : d.activeUser w 0 = none
  idle : ∀ i, (d.pollSets w).size ≤ i → d.activeUser w i = none
  bound : (d.pollSets w).size ≤ clientsPerThread

lemma PollOk.slot_of_findFd {C : Config} {d : Data} {w i : ℕ} {fd : ℤ} (hp : PollOk C d w)
    (hfd : fd ≠ C.pipeOut w) (h : (d.pollSets w).findFd fd = some i) : Slot d w i fd := by
  obtain ⟨hlt, hi⟩ := PollSet.findFd_some h
  refine ⟨Nat.pos_of_ne_zero ?_, hlt, hi⟩
  rintro rfl
  exact hfd (hi.symm.trans hp.pipe)

lemma parseSeatNumber_some {r : Request} {n : ℕ} (h : parseSeatNumber r = some n) :
    1 ≤ n ∧ n ≤ numSeats := by
  simp only [parseSeatNumber] at h
  split at h
  · split at h
    · cases h
    · rename_i hc
      cases h
      simp at hc
      omega
  · cases h

inductive Entered (c : Call) (active : Option Bytes) : Pc → Prop
  | respond {response : Response} (hcode : response.code ≠ 0) :
      Entered c active (.respond c response)
  | lockArray {k : Kind} (hm : k.Matches c.request) (hr : k.Ready c.request active) :
      Entered c active (.handler c (.lockArray k))
  | query {i : ℕ} (ha : c.request.action = Action.query.code)
      (hs : parseSeatNumber c.request = some (i + 1)) :
      Entered c active (.handler c (.queryLock i))

lemma keeps_of_action {r : Request} {response : Response} (h₁ : r.action ≠ Action.login.code)
    (h₂ : r.action ≠ Action.logout.code) : Keeps r response := by
  rintro (h | h)
  · exact absurd h h₁
  · exact absurd h h₂

lemma keeps_of_code {r : Request} {response : Response} (h : response.code ≠ 0) :
    Keeps r response := fun _ => h

lemma lockLoggedInUser_entered {c : Call} {k : Kind} {active : Option Bytes}
    (hm : k.Matches c.request) (hk : k ≠ .login) (hl : k ≠ .logout) :
    Entered c active (c.lockLoggedInUser k active) := by
  simp only [Call.lockLoggedInUser]
  split_ifs with h
  · refine .lockArray hm ?_
    cases k with
    | login => exact absurd rfl hk
    | logout => exact absurd rfl hl
    | seat | confirmBooking => exact active_of_matches h
  · exact .respond k.notLoggedIn_ne_zero

lemma seat_entered {c : Call} {a : SeatAction} {active : Option Bytes} {noData outOfRange : Int32}
    (hno : noData ≠ 0) (hout : outOfRange ≠ 0)
    (hm : ∀ i, parseSeatNumber c.request = some (i + 1) → (Kind.seat a i).Matches c.request) :
    Entered c active (if !c.request.hasData then .respond c (setResponse noData)
      else match parseSeatNumber c.request with
        | none => .respond c (setResponse outOfRange)
        | some n => c.lockLoggedInUser (.seat a (n - 1)) active) := by
  split
  · exact .respond hno
  · split
    · exact .respond hout
    · rename_i n hn
      refine lockLoggedInUser_entered (hm _ ?_) (by simp) (by simp)
      rw [hn, Nat.sub_add_cancel (parseSeatNumber_some hn).1]

lemma handleRequest_entered (c : Call) (active : Option Bytes) :
    Entered c active (c.handleRequest active) := by
  simp only [Call.handleRequest]
  split_ifs with h₁ h₂ h₃ h₄ h₅ h₆
  · simp only [Call.handleLoginRequest]
    split_ifs with ha
    · exact .respond (by decide)
    · exact .respond (by decide)
    · exact .respond (by decide)
    · exact .lockArray h₁ (show active = none by simpa using ha)
  · exact seat_entered (by decide) (by decide) fun i hi => ⟨h₂, hi⟩
  · simp only [Call.handleConfirmBookingRequest]
    split_ifs with hd ht
    · exact .respond (by decide)
    · exact .respond (by decide)
    · refine lockLoggedInUser_entered ⟨h₃, ?_⟩ (by simp) (by simp)
      by_cases hav : c.request.text = Call.available
      · simp [hav]
      · simpa [hav] using ht
  · exact seat_entered (by decide) (by decide) fun i hi => ⟨h₄, hi⟩
  · simp only [Call.handleLogoutRequest]
    split_ifs
    · exact .respond (by decide)
    · exact .lockArray h₅ trivial
  · simp only [Call.handleQueryRequest]
    split_ifs
    · exact .respond (by decide)
    · split
      · exact .respond (by decide)
      · rename_i n hn
        exact .query h₆ (by rw [hn, Nat.sub_add_cancel (parseSeatNumber_some hn).1])
  · exact .respond (by decide)

lemma seatActions_ne {r : Request} {a : SeatAction} {i : ℕ} (h : (Kind.seat a i).Matches r) :
    r.action ≠ Action.login.code ∧ r.action ≠ Action.logout.code := by
  refine ⟨h.ne ?_, h.ne ?_⟩ <;> cases a <;> nofun

@[simp] lemma activeUser_setActiveUser (d : Data) (w i : ℕ) (u : Option Bytes) :
    (d.setActiveUser w i u).activeUser w i = u := by
  simp [Data.setActiveUser, Data.setPollSet, Data.activeUser, PollSet.setActiveUser]

lemma slot_setActiveUser {d : Data} {w i j : ℕ} {u : Option Bytes} {fd : ℤ}
    (h : Slot d w j fd) : Slot (d.setActiveUser w i u) w j fd := by
  simpa [Slot, Data.setActiveUser, Data.setPollSet, PollSet.setActiveUser] using h

lemma HandlerStep.facts {C : Config} {w : ℕ} {c : Call} {salt : Bytes} {d d' : Data} {p : Point}
    {pc : Pc} (h : HandlerStep C w c salt d p d' pc) (hfd : c.fd ≠ C.pipeOut w)
    (hs : Slot d w c.slot c.fd) (hp : p.Facts d w c) : pc.Facts C d' w := by
  have hlogged : ∀ {uid}, Named d uid c.request.user → (d.user uid).loggedIn = true →
      LoggedIn d uid c.request.user := by
    rintro uid ⟨u, hu, hname⟩ hl
    rw [Data.user_eq hu] at hl
    exact ⟨u, hu, hname, hl⟩
  cases h with
  | known hu => exact ⟨hfd, hs, hp.1, hp.2, findUser_some hu⟩
  | create hu =>
    let u : User := ⟨c.request.user, hashPassword C salt c.request.text, false⟩
    exact ⟨hfd, hs, hp.1, hp.2, u, by simp [u], rfl, rfl⟩
  | unknown hk => exact ⟨hfd, hs, hk, hp.1⟩
  | refuse hr => exact ⟨hfd, hs, keeps_of_code hr.code_ne_zero⟩
  | verify => exact ⟨hfd, hs, hp.1, hp.2.1⟩
  | logout hl hm => exact ⟨hfd, hs, hp.1, active_of_matches hm⟩
  | seat hl => exact ⟨hfd, hs, hp.1, hp.2.1, hlogged hp.2.2 hl⟩
  | scan hl => exact ⟨hfd, hs, hp.1, hp.2.1, hlogged hp.2.2 hl, by decide⟩
  | newLockUser => exact ⟨hfd, hs, hp.1, hp.2.1⟩
  | saveActiveUser | clearActiveUser => exact ⟨hfd, slot_setActiveUser hs⟩
  | unlockSeat =>
    obtain ⟨hlogin, hlogout⟩ := seatActions_ne hp.1
    exact ⟨hfd, hs, keeps_of_action hlogin hlogout⟩
  | scanNext hi => exact ⟨hfd, hs, hp.1, hp.2.1, hp.2.2.1, hi⟩
  | scanEnd =>
    refine ⟨hfd, hs, keeps_of_action ?_ ?_⟩ <;> (rw [hp.1.1]; decide)
  | unlockArrayUnknown | unlockUser | queryUnlock => exact ⟨hfd, hs⟩
  | _ => exact ⟨hfd, hs, hp⟩

lemma RemoveStep.facts {C : Config} {w : ℕ} {fd : ℤ} {rest : List (ℤ × Bool)} {d d' : Data}
    {p : RemovePoint} {pc : Pc} (h : RemoveStep w fd rest d p d' pc) (hok : PollOk C d w)
    (hfd : fd ≠ C.pipeOut w) (hp : p.Facts d w fd) : pc.Facts C d' w := by
  cases h with
  | missing => exact ⟨hfd, trivial⟩
  | idle hi => exact ⟨hfd, hok.slot_of_findFd hfd hi⟩
  | active hi ha => exact ⟨hfd, hok.slot_of_findFd hfd hi, ha⟩
  | @unknown i name hu =>
    refine ⟨hfd, hp.1, name, hp.2, ?_⟩
    rintro uid ⟨u, hu', hname⟩
    exact findUser_none hu u (List.mem_of_getElem? hu') hname
  | known hu => exact ⟨hfd, hp.1, _, hp.2, findUser_some hu⟩
  | unlockArrayUnknown | unlockArray => exact ⟨hfd, hp.1⟩
  | close => exact ⟨hfd, slot_setActiveUser hp, activeUser_setActiveUser ..⟩
  | swap => exact ⟨hfd, trivial⟩
  | unlockPollSet => trivial
  | _ => exact ⟨hfd, hp⟩

lemma Entered.facts {C : Config} {c : Call} {w : ℕ} {d : Data} {pc : Pc}
    (h : Entered c (d.activeUser w c.slot) pc) (hfd : c.fd ≠ C.pipeOut w)
    (hs : Slot d w c.slot c.fd) : pc.Facts C d w := by
  cases h with
  | respond hk => exact ⟨hfd, hs⟩
  | lockArray hm hr => exact ⟨hfd, hs, hm, hr⟩
  | query ha hn => exact ⟨hfd, hs, ha, hn⟩

lemma WorkerStep.facts {C : Config} {w : ℕ} {o : Oracle} {d d' : Data} {pc pc' : Pc}
    (h : WorkerStep C w o d pc d' pc') (hok : PollOk C d w) (hp : pc.Facts C d w) :
    pc'.Facts C d' w := by
  cases h with
  | hangUp hfd => exact ⟨hfd, trivial⟩
  | receive hfd => exact hfd
  | find => exact ⟨hp, fun i hi => hok.slot_of_findFd hp hi⟩
  | enter fd r i rest =>
    have hs := hp.2 i rfl
    exact (handleRequest_entered ⟨fd, r, i, rest⟩ (d.activeUser w i)).facts hp.1 hs
  | handler h => exact h.facts hp.1 hp.2.1 hp.2.2
  | unsent => exact ⟨hp.1, trivial⟩
  | remove h => exact h.facts hok hp.1 hp.2
  | _ => trivial

end SystemsLab.Reservation
