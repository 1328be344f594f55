import SystemsLab.Reservation.Sessions
import SystemsLab.Reservation.Connections
import SystemsLab.Reservation.Client

namespace SystemsLab.Reservation

open CLib Threads Function

structure Peer where
  active : Option Bytes
  waiting : Option Request
  requests : List Request
  responses : List Response

def Peer.start : Peer := ⟨none, none, [], []⟩

/-- What a step of a worker does to the connection `fd`, `none` where the step needs that the
connection fails, or that a request is there to be read. -/
def exchange (fd : ℤ) (o : Oracle) (p : Peer) : Pc → Option Peer
  | .polling _ => if (fd, true) ∈ o.ready then none else some p
  | .serve ((fd', _) :: _) =>
    if fd' = fd then
      match p.requests with
      | [] => none
      | r :: requests => if o.request = some r then some { p with requests } else none
    else some p
  | .respond c response =>
    if c.fd = fd then
      if o.sent then some { p with responses := p.responses ++ [response] } else none
    else some p
  | _ => some p

variable {C : Config}

/-- The steps of the server and of a client on the connection `fd`. A line that `evaluate` deals with
alone changes nothing. -/
inductive Joint (fd : ℤ) : Server C × Peer → Server C × Peer → Prop
  | server {s s' : Server C} {p p' : Peer} {t : Thread C.nCores} {o : Oracle}
      (h : (server C).step s t o = .next s') (hp : exchange fd o p (s.pc t) = some p') :
      Joint fd (s, p) (s', p')
  | evaluate {s : Server C} {p : Peer} {input : Bytes} {r : Request} (hw : p.waiting = none)
      (hnul : (0 : UInt8) ∉ input) (hlen : input.length < 2 ^ 63)
      (he : evaluate input p.active = .sends r) :
      Joint fd (s, p) (s, { p with waiting := some r, requests := p.requests ++ [r] })
  | finish {s : Server C} {p : Peer} {r : Request} {response : Response}
      {responses : List Response} (hw : p.waiting = some r)
      (hr : p.responses = response :: responses) :
      Joint fd (s, p)
        (s, { p with active := handleResponse r response p.active, waiting := none, responses })

def notLoggedInCode (action : Int32) : Option Int32 :=
  if action = Action.book.code then some BookErrorCode.userNotLoggedIn.code
  else if action = Action.confirmBooking.code then
    some ConfirmBookingErrorCode.userNotLoggedIn.code
  else if action = Action.cancelBooking.code then some CancelBookingErrorCode.userNotLoggedIn.code
  else if action = Action.logout.code then some LogoutErrorCode.userNotLoggedIn.code
  else none

def Refuses (r : Request) (response : Response) : Prop :=
  notLoggedInCode r.action = some response.code

structure Answers (r : Request) (u x : Option Bytes) (response : Response) : Prop where
  active : x = handleResponse r response u
  accepts : ¬ Refuses r response
  named : r.action = Action.login.code → response.code = LoginErrorCode.success.code →
    r.hasUsername = true

def Point.Accepts (r : Request) : Point → Prop
  | unlockArrayUnknown _ => False
  | unlockUser _ response => ¬ Refuses r response
  | unlockSeat _ _ _ code => ¬ Refuses r (setResponse code)
  | _ => True

def Pc.Serving (fd : ℤ) (r : Request) (u x : Option Bytes) : Pc → Prop
  | find fd' r' _ => fd' = fd ∧ r' = r ∧ x = u
  | found fd' r' slot _ => fd' = fd ∧ r' = r ∧ x = u ∧ slot ≠ none
  | handler c p => c.fd = fd ∧ c.request = r ∧ x = u ∧ p.Accepts r ∧
      (r.action = Action.login.code → r.hasUsername = true)
  | respond c response => c.fd = fd ∧ c.request = r ∧ Answers r u x response
  | _ => False

section Handlers

variable {w : ℕ} {d d' : Data} {c : Call} {u : Option Bytes}

lemma refuses_of_none {r : Request} {response : Response} (h : notLoggedInCode r.action = none) :
    ¬ Refuses r response := by
  rw [Refuses, h]
  nofun

lemma handleResponse_of_keeps {r : Request} {response : Response} (h : Keeps r response)
    (u : Option Bytes) : handleResponse r response u = u := by
  simp only [handleResponse, handleLoginResponse, handleLogoutResponse]
  split_ifs with h₁ h₂ h₃ h₄ h₅
  · exact absurd h₂ (h (.inl h₁))
  · rfl
  · exact absurd h₄ (h (.inr h₃))
  · rfl
  · rfl
  · rfl

lemma answers_of_keeps {r : Request} {response : Response} (h : Keeps r response)
    (hr : ¬ Refuses r response) : Answers r u u response :=
  ⟨(handleResponse_of_keeps h u).symm, hr, fun hl hc => absurd hc (h (.inl hl))⟩

lemma Kind.Matches.needsUser {r : Request} {k : Kind} (h : k.Matches r) (hk : k ≠ .login) :
    NeedsUser r.action := by
  cases k with
  | login => exact absurd rfl hk
  | logout => exact .inr (.inr (.inr h))
  | seat a i =>
    cases a with
    | book => exact .inl h.1
    | cancelBooking => exact .inr (.inr (.inl h.1))
  | confirmBooking b => exact .inr (.inl h.1)

lemma not_refuses {r : Request} {a : Action} {code : Int32} (h : r.action = a.code)
    (hc : notLoggedInCode a.code ≠ some code) : ¬ Refuses r (setResponse code) := by
  rw [Refuses, h]
  exact hc

lemma respond_serving {code : Int32} {a : Action} (ha : c.request.action = a.code)
    (hk : (a = .login ∨ a = .logout) → code ≠ 0) (hc : notLoggedInCode a.code ≠ some code) :
    (Pc.respond c (setResponse code)).Serving c.fd c.request u u := by
  refine ⟨rfl, rfl, answers_of_keeps (fun h => hk ?_) (not_refuses ha hc)⟩
  rw [ha] at h
  cases a <;> first | exact .inl rfl | exact .inr rfl | exact absurd h (by decide)

lemma lockLoggedInUser_serving (k : Kind) (hm : requestMatchesActiveClient c.request u = true)
    (hl : c.request.action ≠ Action.login.code) :
    (c.lockLoggedInUser k u).Serving c.fd c.request u u := by
  rw [Call.lockLoggedInUser, if_pos hm]
  exact ⟨rfl, rfl, rfl, trivial, fun h => absurd h hl⟩

lemma handleRequest_serving (ha : Asked u c.request) :
    (c.handleRequest u).Serving c.fd c.request u u := by
  have hmatch : NeedsUser c.request.action → requestMatchesActiveClient c.request u = true := by
    intro hn
    obtain ⟨hname, hactive⟩ := ha.user hn
    simp [requestMatchesActiveClient, hname, hactive]
  simp only [Call.handleRequest]
  split_ifs with h₁ h₂ h₃ h₄ h₅ h₆
  · have hu := ha.login h₁
    simp only [Call.handleLoginRequest, hu]
    split_ifs with hsome hname hdata
    · cases hsome
    · exact respond_serving h₁ (by decide) (by decide)
    · exact respond_serving h₁ (by decide) (by decide)
    · exact ⟨rfl, rfl, rfl, trivial, fun _ => by simpa using hname⟩
  · simp only [Call.handleBookRequest]
    split_ifs
    · exact respond_serving h₂ (by decide) (by decide)
    · split
      · exact respond_serving h₂ (by decide) (by decide)
      · exact lockLoggedInUser_serving _ (hmatch (.inl h₂)) h₁
  · simp only [Call.handleConfirmBookingRequest]
    split_ifs
    · exact respond_serving h₃ (by decide) (by decide)
    · exact respond_serving h₃ (by decide) (by decide)
    · exact lockLoggedInUser_serving _ (hmatch (.inr (.inl h₃))) h₁
  · simp only [Call.handleCancelBookingRequest]
    split_ifs
    · exact respond_serving h₄ (by decide) (by decide)
    · split
      · exact respond_serving h₄ (by decide) (by decide)
      · exact lockLoggedInUser_serving _ (hmatch (.inr (.inr (.inl h₄)))) h₁
  · have hname := (ha.user (.inr (.inr (.inr h₅)))).1
    simp only [Call.handleLogoutRequest, hname]
    exact ⟨rfl, rfl, rfl, trivial, fun h => absurd h h₁⟩
  · simp only [Call.handleQueryRequest]
    split_ifs
    · exact respond_serving h₆ (by decide) (by decide)
    · split
      · exact respond_serving h₆ (by decide) (by decide)
      · exact ⟨rfl, rfl, rfl, trivial, fun h => absurd h h₁⟩
  · rcases ha.known with h | h | h | h | h | h
    · exact absurd h h₁
    · exact absurd h h₆
    · exact absurd h h₂
    · exact absurd h h₃
    · exact absurd h h₄
    · exact absurd h h₅

def Registered (d : Data) (w i : ℕ) : Prop :=
  (usernames d.users).Nodup ∧
    ∀ name, d.activeUser w i = some name → flagOf d.users name = some true

lemma Registered.loggedIn {i uid : ℕ} {name : Bytes} (hr : Registered d w i)
    (hactive : d.activeUser w i = some name) (hn : Named d uid name) :
    (d.user uid).loggedIn = true := by
  obtain ⟨v, hv, hname⟩ := hn
  obtain ⟨j, v', hv', hname', hl⟩ := (flagOf_eq_some hr.1).mp (hr.2 name hactive)
  obtain rfl : uid = j := named_unique hr.1 hv hv' (hname.trans hname'.symm)
  rw [Data.user_eq hv']
  exact hl

lemma Registered.found {i : ℕ} {name : Bytes} (hr : Registered d w i)
    (hactive : d.activeUser w i = some name) : findUser d.users name ≠ none := by
  intro hnone
  have hflag := hr.2 name hactive
  rw [flagOf_of_findUser hnone] at hflag
  cases hflag

lemma Kind.Refused.accepts {k : Kind} {uid : ℕ} {code : Int32}
    (h : k.Refused C c.request u (d.user uid) code) (ha : Asked u c.request)
    (hm : k.Matches c.request) (hlogged : k ≠ .login → (d.user uid).loggedIn = true) :
    ¬ Refuses c.request (setResponse code) := by
  cases h with
  | activeUser | incorrectPassword => exact not_refuses (a := .login) hm (by decide)
  | logout hl =>
    obtain ⟨hname, hu⟩ := ha.user (hm.needsUser (by simp))
    rw [hlogged (by simp)] at hl
    simp [hu, hname, requestMatchesActiveClient] at hl
  | seat hl | confirmBooking hl =>
    rw [hlogged (by simp)] at hl
    cases hl

lemma HandlerStep.serving {salt : Bytes} {p : Point} {pc : Pc}
    (h : HandlerStep C w c salt d p d' pc) (hp : p.Facts d w c) (ha : Asked u c.request)
    (hr : (Pc.handler c p).owed = none → Registered d w c.slot)
    (hs : (Pc.handler c p).Serving c.fd c.request u (d.activeUser w c.slot)) :
    pc.Serving c.fd c.request u (d'.activeUser w c.slot) := by
  obtain ⟨_, _, hactive, haccepts, hname⟩ := hs
  cases h with
  | unknown hk hu =>
    have hsome := (ha.user (hp.1.needsUser hk)).2
    exact absurd hu ((hr rfl).found (hactive.trans hsome))
  | unlockArrayUnknown => exact haccepts.elim
  | refuse hrefused =>
    rw [hactive] at hrefused
    refine ⟨rfl, rfl, hactive, hrefused.accepts ha hp.1 fun hk => ?_, hname⟩
    exact (hr rfl).loggedIn (hactive.trans (ha.user (hp.1.needsUser hk)).2) hp.2.2
  | unlockUser =>
    rw [hactive]
    exact ⟨rfl, rfl, answers_of_keeps hp haccepts⟩
  | saveActiveUser =>
    rw [activeUser_setActiveUser]
    refine ⟨rfl, rfl, ?_, ?_, fun hl _ => hname hl⟩
    · rw [handleResponse, if_pos hp.1]
      rfl
    · exact not_refuses hp.1 (by decide)
  | clearActiveUser =>
    rw [activeUser_setActiveUser]
    have hu : u = some c.request.user := hactive.symm.trans hp.2
    refine ⟨rfl, rfl, ?_, ?_, fun hl => ?_⟩
    · rw [handleResponse, hp.1, hu]
      simp [handleLogoutResponse, setResponse, Action.code]
    · exact not_refuses hp.1 (by decide)
    · rw [hp.1] at hl
      exact absurd hl (by decide)
  | seatUnavailable | book | seatNotBooked | cancel =>
    exact ⟨rfl, rfl, hactive, not_refuses hp.1.1 (by decide), hname⟩
  | unlockSeat => exact ⟨rfl, rfl, hactive, haccepts, hname⟩
  | @scanEnd b uid i selected hi =>
    refine ⟨rfl, rfl, hactive, ?_, hname⟩
    have hcode : (Call.seatsResponse selected).code = ConfirmBookingErrorCode.success.code := by
      simp only [Call.seatsResponse]
      split_ifs <;> rfl
    rw [Point.Accepts, Refuses, hcode, hp.1.1]
    decide
  | queryUnlock =>
    rw [hactive]
    refine ⟨rfl, rfl, answers_of_keeps (keeps_of_action ?_ ?_) (refuses_of_none ?_)⟩
    all_goals
      rw [hp.1]
      decide
  | _ => exact ⟨rfl, rfl, hactive, trivial, hname⟩

end Handlers

section Invariant

variable {fd : ℤ} {s s' : Server C} {p p' : Peer} {u : Option Bytes} {r : Request} {o : Oracle}
  {v w : Fin C.nCores} {i : ℕ}

def Listed (s : Server C) (fd : ℤ) (w : Fin C.nCores) (i : ℕ) (u : Option Bytes) : Prop :=
  Live s w i ∧ fdAt s w i = fd ∧ s.data.activeUser w i = u

structure Settled (s : Server C) (fd : ℤ) (u : Option Bytes) : Prop where
  calm : ∀ w, (s.pc (.worker w)).current ≠ some fd
  user : (s.pc .main).inHand = some fd ∧ u = none ∨ ∃ w i, Listed s fd w i u

structure Served (s : Server C) (fd : ℤ) (r : Request) (u : Option Bytes) (w : Fin C.nCores)
    (i : ℕ) (x : Option Bytes) : Prop where
  listed : Listed s fd w i x
  serving : (s.pc (.worker w)).Serving fd r u x
  alone : ∀ v, v ≠ w → (s.pc (.worker v)).current ≠ some fd

inductive Agrees (s : Server C) (fd : ℤ) : Peer → Prop
  | idle {u : Option Bytes} (hs : Settled s fd u) : Agrees s fd ⟨u, none, [], []⟩
  | sent {u : Option Bytes} {r : Request} (ha : Asked u r) (hs : Settled s fd u) :
      Agrees s fd ⟨u, some r, [r], []⟩
  | served {u x : Option Bytes} {r : Request} {w : Fin C.nCores} {i : ℕ} (ha : Asked u r)
      (hs : Served s fd r u w i x) : Agrees s fd ⟨u, some r, [], []⟩
  | answered {u x : Option Bytes} {r : Request} {response : Response} (ha : Asked u r)
      (hr : Answers r u x response) (hs : Settled s fd x) :
      Agrees s fd ⟨u, some r, [], [response]⟩

structure Agreement (fd : ℤ) (x : Server C × Peer) : Prop where
  reachable : Reachable C x.1
  pipe : ∀ w : Fin C.nCores, fd ≠ C.pipeOut w
  working : ∀ w, (fd, true) ∉ (x.1.pc (.worker w)).pending
  text : ∀ name, x.2.active = some name → IsText name
  agrees : Agrees x.1 fd x.2

lemma Pc.Serving.current {u x : Option Bytes} {pc : Pc} (h : pc.Serving fd r u x) :
    pc.current = some fd := by
  cases pc with
  | find | handler | respond => exact congrArg some h.1
  | found fd' r' slot rest =>
    cases slot with
    | none => exact absurd rfl h.2.2.2
    | some i => exact congrArg some h.1
  | _ => exact h.elim

lemma Pc.Serving.closed {u x : Option Bytes} {pc : Pc} (h : pc.Serving fd r u x) :
    pc.closed = none := by
  cases pc with
  | remove => exact h.elim
  | _ => rfl

lemma NetStep.stays {w : ℕ} {d d' : Data} {pc pc' : Pc} (h : NetStep w d d' pc pc')
    (hc : pc.closed = none) (hc' : pc'.closed = none) :
    (d'.pollSets w).size = (d.pollSets w).size ∧ (d'.pollSets w).fd = (d.pollSets w).fd := by
  cases h with
  | same hp =>
    rw [hp]
    exact ⟨rfl, rfl⟩
  | active _ _ hp =>
    rw [hp, pollSets_setActiveUser]
    exact ⟨rfl, rfl⟩
  | close => cases hc'
  | swap => cases hc

lemma Settled.main_step (hr : Reachable C s) (h : (server C).step s .main o = .next s')
    (hs : Settled s fd u) : Settled s' fd u := by
  refine ⟨fun w => ?_, ?_⟩
  · rw [main_pc h]
    exact hs.calm w
  · rcases hs.user with ⟨hin, hu⟩ | ⟨w, i, hi, hfd, hactive⟩
    · obtain ⟨q, hq, hfacts⟩ := Reachable.mainFacts hr
      have hpcw := main_pc h
      obtain ⟨q', d', p', hq', hm, rfl, hpc⟩ := Reservation.main_step h
      rw [hq] at hq' hin
      cases hq'
      cases hm with
      | accept => cases hin
      | pass hd hp =>
        refine .inl ⟨?_, hu⟩
        rw [hpc, update_self]
        exact hp.trans hin
      | @give j connfd hlt hd =>
        cases hin
        have hset : s'.data.pollSets j = (s.data.pollSets j).add fd := by
          rw [hd, pollSets_setPollSet]
        let w : Fin C.nCores := ⟨j, hfacts.1⟩
        refine .inr ⟨w, (s.data.pollSets j).size, ⟨?_, ?_⟩, ?_, ?_⟩
        · rw [hset]
          exact Nat.lt_succ_self _
        · rw [hpcw]
          intro hc
          have hlt := (closed_slot ((Reachable.local hr).facts w) hc).2
          exact lt_irrefl _ hlt
        · rw [fdAt, hset]
          exact update_self ..
        · rw [Data.activeUser, hset, hu]
          exact update_self ..
      | drop => exact hfacts.elim
    · obtain ⟨hi', hfd', hactive'⟩ := main_keeps h hi
      exact .inr ⟨w, i, hi', hfd'.trans hfd, hactive'.trans hactive⟩

lemma eq_of_waiting (hk : Connected s) (hl : Live s w i) (hfd : fdAt s w i = fd)
    (hin : fd ∈ (s.pc (.worker v)).waiting) : v = w := by
  obtain ⟨j, hj, hfdj⟩ := hk.live hin
  exact (hk.distinct hj hl (hfdj.trans hfd.symm)).1

lemma worker_pc_ne (h : (server C).step s (.worker v) o = .next s') (hw : w ≠ v) :
    s'.pc (.worker w) = s.pc (.worker w) := by
  exact Program.step_pc_ne h (by simpa using hw)

lemma Listed.worker_step (hl : Local C s) (h : (server C).step s (.worker v) o = .next s')
    (hi : Listed s fd w i u) (hne : w = v → (s.pc (.worker v)).current ≠ some fd) :
    ∃ j, Listed s' fd w j u := by
  obtain ⟨hi, rfl, hactive⟩ := hi
  obtain ⟨j, hj, hfd, hactive'⟩ := worker_keeps hl h hi fun he => .inl (hne he)
  exact ⟨j, hj, hfd, (hactive' hne).trans hactive⟩

lemma Settled.worker_step (hl : Local C s) (h : (server C).step s (.worker v) o = .next s')
    (hs : Settled s fd u) (hc : (s'.pc (.worker v)).current ≠ some fd) : Settled s' fd u := by
  refine ⟨fun w => ?_, ?_⟩
  · by_cases hw : w = v
    · rwa [hw]
    · rw [worker_pc_ne h hw]
      exact hs.calm w
  · rcases hs.user with ⟨hin, hu⟩ | ⟨w, i, hi⟩
    · obtain ⟨d', pc', _, _, hpc⟩ := Reservation.worker_step h
      exact .inl ⟨by rw [hpc, update_of_ne (by simp), hin], hu⟩
    · obtain ⟨j, hj⟩ := hi.worker_step hl h fun _ => hs.calm v
      exact .inr ⟨w, j, hj⟩

lemma exchange_apart {d d' : Data} {pc pc' : Pc} (h : workerCode C v o d pc = .next (d', pc'))
    (hpipe : fd ≠ C.pipeOut v) (hp : exchange fd o p pc = some p') (hc : pc.current ≠ some fd)
    (hc' : pc'.current ≠ some fd) : p' = p := by
  cases pc with
  | polling locals =>
    simp only [exchange] at hp
    split_ifs at hp
    exact (Option.some.inj hp).symm
  | respond c response =>
    simp only [exchange] at hp
    split_ifs at hp with hfd
    · exact absurd (congrArg some hfd) hc
    · exact (Option.some.inj hp).symm
  | serve ready =>
    cases ready with
    | nil => exact (Option.some.inj hp).symm
    | cons x rest =>
      obtain ⟨fd', failed⟩ := x
      by_cases hfd : fd' = fd
      · subst hfd
        simp only [workerCode, if_neg hpipe] at h
        split_ifs at h
        · cases h
          exact absurd rfl hc'
        · split at h <;> cases h <;> exact absurd rfl hc'
      · simp only [exchange, if_neg hfd] at hp
        exact (Option.some.inj hp).symm
  | _ => exact (Option.some.inj hp).symm

lemma exchange_working {d d' : Data} {pc pc' : Pc} (h : workerCode C v o d pc = .next (d', pc'))
    (hp : exchange fd o p pc = some p') (hw : (fd, true) ∉ pc.pending) :
    (fd, true) ∉ pc'.pending := by
  by_cases hpoll : ∃ locals, pc = .polling locals
  · obtain ⟨locals, rfl⟩ := hpoll
    simp only [exchange] at hp
    split_ifs at hp with hready
    simp only [workerCode] at h
    split at h <;> cases h
    exact hready
  · cases (workerCode_step h).queue with
    | snapshot => simp [Pc.pending]
    | take hp' hc =>
      rw [hp']
      exact fun hin => hw (List.mem_cons_of_mem _ hin)
    | poll hr => exact absurd ⟨_, rfl⟩ hpoll
    | keep hp' hc => rwa [hp']

lemma exchange_take {d d' : Data} {pc pc' : Pc} (h : workerCode C v o d pc = .next (d', pc'))
    (hpipe : fd ≠ C.pipeOut v) (hp : exchange fd o p pc = some p') (hw : (fd, true) ∉ pc.pending)
    (hc : pc.current ≠ some fd) (hc' : pc'.current = some fd) :
    fd ∈ pc.waiting ∧ pc.current = none ∧ ∃ r requests rest, p.requests = r :: requests ∧
      p' = { p with requests } ∧ pc' = .find fd r rest := by
  have hq := (workerCode_step h).queue
  cases hq with
  | snapshot | poll => cases hc'
  | keep hp' hk =>
    rw [hc'] at hk
    simp only [reduceCtorEq, false_or] at hk
    exact absurd hk.symm hc
  | @take fd' failed rest pc' hp' hk =>
    rw [hc'] at hk
    obtain rfl : fd = fd' := by simpa using hk
    refine ⟨by simp [Pc.waiting, Pc.pending], rfl, ?_⟩
    have hfailed : failed = false := by
      cases failed with
      | false => rfl
      | true => exact absurd (List.mem_cons_self ..) hw
    simp only [exchange, if_true] at hp
    split at hp
    · cases hp
    · rename_i r requests hr
      split_ifs at hp with ho
      cases hp
      simp only [workerCode, if_neg hpipe, hfailed, ho] at h
      cases h
      exact ⟨r, requests, rest, hr, rfl, rfl⟩

lemma registered (hr : Reachable C s) (ho : (s.pc (.worker w)).owed = none) (i : ℕ) :
    Registered s.data w i := by
  refine ⟨Reachable.usernames hr, fun name hname => ?_⟩
  refine (Reachable.consistent hr).held (h := (w, i)) ?_
  simpa only [registry, sessions_of_owed ho] using hname

lemma Listed.slot_eq (hk : Connected s) (hi : Listed s fd w i u) {j : ℕ}
    (hs : Slot s.data w j fd) (hc : (s.pc (.worker w)).closed = none) : j = i := by
  refine (hk.distinct ⟨hs.2.1, ?_⟩ hi.1 (hs.2.2.trans hi.2.1.symm)).2
  rw [hc]
  nofun

lemma Served.worker_step (hr : Reachable C s) (ha : Asked u r)
    {x : Option Bytes} (h : (server C).step s (.worker w) o = .next s')
    (hp : exchange fd o p (s.pc (.worker w)) = some p') (hs : Served s fd r u w i x) :
    (p' = p ∧ ∃ i' x', Served s' fd r u w i' x') ∨
      ∃ response y, p' = { p with responses := p.responses ++ [response] } ∧
        Answers r u y response ∧ Settled s' fd y := by
  have hl := Reachable.local hr
  have hk := Reachable.connected hr
  obtain ⟨hi, hserving, halone⟩ := hs
  have halone' : ∀ v, v ≠ w → (s'.pc (.worker v)).current ≠ some fd := by
    intro v hv
    rw [worker_pc_ne h hv]
    exact halone v hv
  have hfacts := hl.facts w
  have hclosed := hserving.closed
  obtain ⟨d', pc', hc, rfl, hpc⟩ := Reservation.worker_step h
  have hpc' : s'.pc (.worker w) = pc' := by rw [hpc, update_self]
  have hstay : pc'.closed = none → Live s' w i ∧ fdAt s' w i = fd := by
    intro hclosed'
    obtain ⟨hsize, hfd⟩ := ((workerCode_step hc).net hfacts).stays hclosed hclosed'
    refine ⟨⟨?_, ?_⟩, ?_⟩
    · rw [hsize]
      exact hi.1.1
    · rw [hpc', hclosed']
      rintro ⟨⟩
    · rw [fdAt, hfd]
      exact hi.2.1
  have hserve : pc'.Serving fd r u (s'.data.activeUser w i) →
      ∃ i' x', Served s' fd r u w i' x' := by
    intro hs'
    obtain ⟨hlive, hfd⟩ := hstay hs'.closed
    exact ⟨i, _, ⟨hlive, hfd, rfl⟩, by rwa [hpc'], halone'⟩
  have hslot := fun {j} hs => hi.slot_eq hk (j := j) hs hclosed
  have hreg := fun ho => registered (w := w) hr ho i
  generalize hpcw : s.pc (.worker w) = pc at hserving hfacts hclosed hc hp hslot hreg
  obtain ⟨hlive, hfd, hactive⟩ := hi
  cases pc with
  | find fd' r' rest =>
    obtain ⟨rfl, rfl, hx⟩ := hserving
    simp only [workerCode, Outcome.next.injEq, Prod.mk.injEq] at hc
    obtain ⟨hd, rfl⟩ := hc
    refine .inl ⟨(Option.some.inj hp).symm, hserve ⟨rfl, rfl, ?_, fun hnone => ?_⟩⟩
    · rw [← hd, hactive, hx]
    · have hall := List.find?_eq_none.mp hnone i (List.mem_range.mpr hlive.1)
      simp only [beq_iff_eq] at hall
      exact hall hfd
  | found fd' r' slot rest =>
    obtain ⟨rfl, rfl, hx, hsome⟩ := hserving
    cases slot with
    | none => exact absurd rfl hsome
    | some k =>
      obtain rfl : k = i := hslot (hfacts.2 k rfl)
      simp only [workerCode, Outcome.next.injEq, Prod.mk.injEq] at hc
      obtain ⟨hd, rfl⟩ := hc
      have hu : s.data.activeUser w k = u := hactive.trans hx
      refine .inl ⟨(Option.some.inj hp).symm, hserve ?_⟩
      rw [← hd, hu]
      exact handleRequest_serving (c := ⟨fd', r', k, rest⟩) ha
  | handler c q =>
    obtain ⟨rfl, rfl, hx, haccepts⟩ := hserving
    obtain rfl : c.slot = i := hslot hfacts.2.1
    refine .inl ⟨(Option.some.inj hp).symm, hserve ?_⟩
    exact (handlerCode_step hc).serving hfacts.2.2 ha hreg ⟨rfl, rfl, hactive.trans hx, haccepts⟩
  | respond c response =>
    obtain ⟨rfl, rfl, hanswers⟩ := hserving
    simp only [exchange, if_true] at hp
    split_ifs at hp with hsent
    simp only [workerCode, hsent, if_true, Outcome.next.injEq, Prod.mk.injEq] at hc
    obtain ⟨hd, rfl⟩ := hc
    obtain ⟨hlive', hfd'⟩ := hstay rfl
    refine .inr ⟨response, x, (Option.some.inj hp).symm, hanswers, fun v => ?_,
      .inr ⟨w, i, hlive', hfd', ?_⟩⟩
    · by_cases hv : v = w
      · rw [hv, hpc']
        rintro ⟨⟩
      · exact halone' v hv
    · rw [← hd, hactive]
  | _ => exact hserving.elim

lemma Served.other_step (hr : Reachable C s) (hpipe : ∀ w : Fin C.nCores, fd ≠ C.pipeOut w)
    {x : Option Bytes} (hv : v ≠ w) (h : (server C).step s (.worker v) o = .next s')
    (hp : exchange fd o p (s.pc (.worker v)) = some p') (hs : Served s fd r u w i x)
    (hworking : (fd, true) ∉ (s.pc (.worker v)).pending) :
    p' = p ∧ ∃ i', Served s' fd r u w i' x := by
  have hl := Reachable.local hr
  have hk := Reachable.connected hr
  obtain ⟨hi, hserving, halone⟩ := hs
  have hc' : (s'.pc (.worker v)).current ≠ some fd := by
    intro hc'
    obtain ⟨d', pc', hc, rfl, hpc⟩ := Reservation.worker_step h
    rw [hpc, update_self] at hc'
    obtain ⟨hin, -⟩ := exchange_take hc (hpipe v) hp hworking (halone v hv) hc'
    exact hv (eq_of_waiting hk hi.1 hi.2.1 hin)
  obtain ⟨j, hj⟩ := hi.worker_step hl h fun he => absurd he.symm hv
  refine ⟨?_, j, hj, ?_, fun u hu => ?_⟩
  · obtain ⟨d', pc', hc, rfl, hpc⟩ := Reservation.worker_step h
    rw [hpc, update_self] at hc'
    exact exchange_apart hc (hpipe v) hp (halone v hv) hc'
  · rwa [worker_pc_ne h (Ne.symm hv)]
  · by_cases huv : u = v
    · rwa [huv]
    · rw [worker_pc_ne h huv]
      exact halone u hu

lemma Settled.served (hr : Reachable C s) (hpipe : ∀ w : Fin C.nCores, fd ≠ C.pipeOut w)
    (hs : Settled s fd u) (h : (server C).step s (.worker v) o = .next s')
    (hp : exchange fd o p (s.pc (.worker v)) = some p')
    (hworking : (fd, true) ∉ (s.pc (.worker v)).pending)
    (hc' : (s'.pc (.worker v)).current = some fd) : ∃ r requests i, p.requests = r :: requests ∧
      p' = { p with requests } ∧ Served s' fd r u v i u := by
  have hl := Reachable.local hr
  have hk := Reachable.connected hr
  obtain ⟨d', pc', hc, rfl, hpc⟩ := Reservation.worker_step h
  have hpc' : s'.pc (.worker v) = pc' := by rw [hpc, update_self]
  rw [hpc'] at hc'
  obtain ⟨hin, -, r, requests, rest, hreq, rfl, rfl⟩ :=
    exchange_take hc (hpipe v) hp hworking (hs.calm v) hc'
  obtain ⟨j, hj, hfdj⟩ := hk.live hin
  have hlisted : Listed s fd v j u := by
    rcases hs.user with ⟨hin, -⟩ | ⟨w, i, hi, hfd, hactive⟩
    · exact absurd hfdj ((hk.hand hin).2 v j hj)
    · obtain ⟨rfl, rfl⟩ := hk.distinct hj hi (hfdj.trans hfd.symm)
      exact ⟨hi, hfd, hactive⟩
  obtain ⟨i, hi⟩ := hlisted.worker_step hl h fun _ => hs.calm v
  refine ⟨r, requests, i, hreq, rfl, hi, ?_, fun w hw => ?_⟩
  · rw [hpc']
    exact ⟨rfl, rfl, rfl⟩
  · rw [worker_pc_ne h hw]
    exact hs.calm w

lemma Agrees.worker_step (hr : Reachable C s) (hpipe : ∀ w : Fin C.nCores, fd ≠ C.pipeOut w)
    (h : (server C).step s (.worker v) o = .next s')
    (hp : exchange fd o p (s.pc (.worker v)) = some p')
    (hworking : (fd, true) ∉ (s.pc (.worker v)).pending) (ha : Agrees s fd p) :
    Agrees s' fd p' ∧ p'.active = p.active := by
  have hsettled : ∀ {u}, Settled s fd u → (p' = p ∧ Settled s' fd u) ∨
      ∃ r requests i, p.requests = r :: requests ∧ p' = { p with requests } ∧
        Served s' fd r u v i u := by
    intro u hs
    by_cases hc' : (s'.pc (.worker v)).current = some fd
    · exact .inr (hs.served hr hpipe h hp hworking hc')
    · refine .inl ⟨?_, hs.worker_step (Reachable.local hr) h hc'⟩
      obtain ⟨d', pc', hc, rfl, hpc⟩ := Reservation.worker_step h
      rw [hpc, update_self] at hc'
      exact exchange_apart hc (hpipe v) hp (hs.calm v) hc'
  cases ha with
  | idle hs =>
    rcases hsettled hs with ⟨rfl, hs'⟩ | ⟨r, requests, i, hreq, -⟩
    · exact ⟨.idle hs', rfl⟩
    · cases hreq
  | sent ha hs =>
    rcases hsettled hs with ⟨rfl, hs'⟩ | ⟨r, requests, i, hreq, rfl, hs'⟩
    · exact ⟨.sent ha hs', rfl⟩
    · cases hreq
      exact ⟨.served ha hs', rfl⟩
  | answered ha hy hs =>
    rcases hsettled hs with ⟨rfl, hs'⟩ | ⟨r, requests, i, hreq, -⟩
    · exact ⟨.answered ha hy hs', rfl⟩
    · cases hreq
  | @served u x r w i ha hs =>
    by_cases hv : v = w
    · subst v
      rcases hs.worker_step hr ha h hp with ⟨rfl, i', x', hs'⟩ | ⟨response, y, rfl, hy, hs'⟩
      · exact ⟨.served ha hs', rfl⟩
      · exact ⟨.answered ha hy hs', rfl⟩
    · obtain ⟨rfl, i', hs'⟩ := hs.other_step hr hpipe hv h hp hworking
      exact ⟨.served ha hs', rfl⟩

lemma Agrees.main_step (hr : Reachable C s) (h : (server C).step s .main o = .next s')
    (ha : Agrees s fd p) : Agrees s' fd p := by
  cases ha with
  | idle hs => exact .idle (hs.main_step hr h)
  | sent ha hs => exact .sent ha (hs.main_step hr h)
  | answered ha hy hs => exact .answered ha hy (hs.main_step hr h)
  | @served u x r w i ha hs =>
    obtain ⟨⟨hi, hfd, hactive⟩, hserving, halone⟩ := hs
    obtain ⟨hi', hfd', hactive'⟩ := main_keeps h hi
    refine .served ha ⟨⟨hi', hfd'.trans hfd, hactive'.trans hactive⟩, ?_, fun v hv => ?_⟩
    · rwa [main_pc h]
    · rw [main_pc h]
      exact halone v hv

lemma exchange_main {q : MainPoint} (hpc : s.pc .main = .main q)
    (hp : exchange fd o p (s.pc .main) = some p') : p' = p := by
  rw [hpc] at hp
  exact (Option.some.inj hp).symm

lemma Agreement.step {x y : Server C × Peer} (hx : Agreement fd x) (h : Joint fd x y) :
    Agreement fd y := by
  obtain ⟨hr, hpipe, hworking, htext, hagrees⟩ := hx
  cases h with
  | @server s s' p p' t o h hp =>
    have hr' : Reachable C s' := hr.step h
    cases t with
    | main =>
      obtain ⟨q, hq, _⟩ := Reachable.mainFacts hr
      obtain rfl := exchange_main hq hp
      refine ⟨hr', hpipe, fun w => ?_, htext, hagrees.main_step hr h⟩
      rw [main_pc h]
      exact hworking w
    | worker v =>
      obtain ⟨hagrees', hactive⟩ := hagrees.worker_step hr hpipe h hp (hworking v)
      refine ⟨hr', hpipe, fun w => ?_, by rwa [hactive], hagrees'⟩
      by_cases hw : w = v
      · subst w
        obtain ⟨d', pc', hc, rfl, hpc⟩ := Reservation.worker_step h
        rw [hpc, update_self]
        exact exchange_working hc hp (hworking v)
      · rw [worker_pc_ne h hw]
        exact hworking w
  | @evaluate s p input r hw hnul hlen he =>
    refine ⟨hr, hpipe, hworking, htext, ?_⟩
    have ha := evaluate_asked hnul hlen htext he
    cases hagrees with
    | idle hs => exact .sent ha hs
    | sent | served | answered => cases hw
  | @finish s p r response responses hw hresp =>
    cases hagrees with
    | idle => cases hw
    | sent | served => cases hresp
    | @answered u x r₀ response₀ ha hy hs =>
      cases hw
      cases hresp
      refine ⟨hr, hpipe, hworking, isText_handleResponse ha.proper hy.named htext, ?_⟩
      rw [← hy.active]
      exact .idle hs

lemma Agreement.start (hr : Reachable C s) (h : (server C).step s .main o = .next s')
    (hpc : s.pc .main = .main .accepting) : Agreement o.connfd (s', Peer.start) := by
  have hk := Reachable.connected hr
  have hl := Reachable.local hr
  have hfree : s.data.opened o.connfd = false ∧ (s'.pc .main).inHand = some o.connfd := by
    obtain ⟨_, d', pc', hc, rfl⟩ := Program.step_next h
    simp only [server, hpc, mainCode] at hc
    by_cases ho : s.data.opened o.connfd = true
    · simp [ho] at hc
    · simp only [ho, Bool.false_eq_true, if_false, Outcome.next.injEq, Prod.mk.injEq] at hc
      obtain ⟨-, rfl⟩ := hc
      refine ⟨by simpa using ho, ?_⟩
      simp [Pc.inHand, inHand_findNext]
  have hne : ∀ {w i}, Live s w i → fdAt s w i ≠ o.connfd := by
    intro w i hi he
    have ho := hk.opened hi
    rw [he, hfree.1] at ho
    cases ho
  refine ⟨hr.step h, fun w he => ?_, fun w hin => ?_, ?_, .idle ⟨fun w hc => ?_, ?_⟩⟩
  · have hok := hl.poll w
    refine hne (w := w) (i := 0) ⟨hok.pos, fun hc => ?_⟩ (hok.pipe.trans he.symm)
    exact lt_irrefl _ (closed_slot (hl.facts w) hc).1
  · rw [main_pc h] at hin
    obtain ⟨i, hi, hfd⟩ := hk.live (List.mem_map.mpr ⟨_, hin, rfl⟩)
    exact hne hi hfd
  · rintro _ ⟨⟩
  · rw [main_pc h] at hc
    obtain ⟨i, hi, hfd⟩ := hk.busy hc
    exact hne hi hfd
  · exact .inl ⟨hfree.2, rfl⟩

end Invariant

theorem client_server_agreement (C : Config) (s₀ s₁ : Server C) (o : Oracle) (hs : Reachable C s₀)
    (haccept : s₀.pc .main = .main .accepting) (hstep : (server C).step s₀ .main o = .next s₁)
    (s : Server C) (p : Peer)
    (hrun : Relation.ReflTransGen (Joint o.connfd) (s₁, Peer.start) (s, p)) :
    (p.waiting = none →
      (∀ w i, Live s w i → fdAt s w i = o.connfd → s.data.activeUser w i = p.active) ∧
      ((∀ w i, Live s w i → fdAt s w i ≠ o.connfd) → p.active = none)) ∧
    (∀ w c response, s.pc (.worker w) = .respond c response → c.fd = o.connfd →
      p.waiting = some c.request ∧ notLoggedInCode c.request.action ≠ some response.code) ∧
    ∀ r response, p.waiting = some r → response ∈ p.responses →
      notLoggedInCode r.action ≠ some response.code := by
  have hstart := Agreement.start hs hstep haccept
  have hagree : Agreement o.connfd (s, p) := by
    generalize hy : (s, p) = y at hrun ⊢
    clear hy
    induction hrun with
    | refl => exact hstart
    | tail _ h ih => exact ih.step h
  have hk := Reachable.connected hagree.reachable
  have huser : ∀ {u}, Settled s o.connfd u →
      (∀ w i, Live s w i → fdAt s w i = o.connfd → s.data.activeUser w i = u) ∧
      ((∀ w i, Live s w i → fdAt s w i ≠ o.connfd) → u = none) := by
    intro u hset
    rcases hset.user with ⟨hin, rfl⟩ | ⟨v, j, hj, hfdj, hactive⟩
    · exact ⟨fun w i hi hfd => absurd hfd ((hk.hand hin).2 w i hi), fun _ => rfl⟩
    · refine ⟨fun w i hi hfd => ?_, fun hno => absurd hfdj (hno v j hj)⟩
      obtain ⟨rfl, rfl⟩ := hk.distinct hi hj (hfd.trans hfdj.symm)
      exact hactive
  have hcalm : ∀ {u w c response}, Settled s o.connfd u → s.pc (.worker w) = .respond c response →
      c.fd ≠ o.connfd := by
    intro u w c response hset hpc hfd
    exact hset.calm w (by rw [hpc, ← hfd]; rfl)
  obtain ⟨-, -, -, -, ha⟩ := hagree
  refine ⟨?_, ?_, ?_⟩
  · intro hw
    cases ha with
    | idle hset => exact huser hset
    | sent | served | answered => cases hw
  · intro w c response hpc hfd
    cases ha with
    | idle hset | sent _ hset | answered _ _ hset => exact absurd hfd (hcalm hset hpc)
    | @served u x r v i hasked hserved =>
      obtain rfl : w = v := by
        by_contra hv
        exact hserved.alone w hv (by rw [hpc, ← hfd]; rfl)
      have hserving := hserved.serving
      rw [hpc] at hserving
      obtain ⟨-, rfl, hanswers⟩ := hserving
      exact ⟨rfl, hanswers.accepts⟩
  · intro r response hw hin
    cases ha with
    | idle => cases hw
    | sent | served => cases hin
    | answered hasked hanswers hset =>
      cases hw
      rw [List.mem_singleton] at hin
      subst hin
      exact hanswers.accepts

def jointRun (fd : ℤ) (s : Server C) (p : Peer) :
    List (Thread C.nCores × Oracle) → Option (Server C × Peer)
  | [] => some (s, p)
  | (t, o) :: rest =>
    match (server C).step s t o, exchange fd o p (s.pc t) with
    | .next s', some p' => jointRun fd s' p' rest
    | _, _ => none

lemma joint_of_run {fd : ℤ} {s : Server C} {p : Peer} {l : List (Thread C.nCores × Oracle)}
    {x : Server C × Peer} (h : jointRun fd s p l = some x) :
    Relation.ReflTransGen (Joint fd) (s, p) x := by
  induction l generalizing s p with
  | nil =>
    cases h
    exact .refl
  | cons y rest ih =>
    obtain ⟨t, o⟩ := y
    simp only [jointRun] at h
    split at h
    · exact .head (.server ‹_› ‹_›) (ih h)
    · cases h

def loginExchange : List (Thread 1 × Oracle) :=
  List.replicate 4 (.main, anyOracle) ++
    ([anyOracle, anyOracle, readable, receiving loginRequest] ++ List.replicate 8 anyOracle).map
      fun o => (.worker (Fin.last 0), o)

theorem client_server_agreement_login : ∃ (s : Server oneCore) (p : Peer),
    p.active = some (ascii "a") ∧ s.data.activeUser 0 1 = p.active := by
  let s₁ : Server oneCore := after oneCore [((.main : Thread 1), anyOracle)]
  let p₁ : Peer := ⟨none, some loginRequest, [loginRequest], []⟩
  let x := (jointRun (C := oneCore) 7 s₁ p₁ loginExchange).getD (s₁, p₁)
  have hinput : evaluate (ascii "login a b") none = .sends loginRequest := rfl
  have hsend : Joint 7 (s₁, Peer.start) (s₁, p₁) :=
    .evaluate rfl (by decide) (by decide) hinput
  have hserve : Relation.ReflTransGen (Joint 7) (s₁, p₁) x := joint_of_run (l := loginExchange) rfl
  have hwaiting : x.2.waiting = some loginRequest := rfl
  have hresponse : x.2.responses = [setResponse 0] := rfl
  have hfinish : Joint 7 x (x.1, ⟨some (ascii "a"), none, [], []⟩) := .finish hwaiting hresponse
  have h := client_server_agreement oneCore (after oneCore []) s₁ anyOracle (reachable_after _ _)
    rfl rfl _ _ ((Relation.ReflTransGen.head hsend hserve).tail hfinish)
  exact ⟨_, _, rfl, (h.1 rfl).1 (0 : Fin 1) 1 ⟨by decide, by decide⟩ rfl⟩

end SystemsLab.Reservation
