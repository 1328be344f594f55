import SystemsLab.Reservation.Frame

namespace SystemsLab.Reservation

open CLib Threads

def Named (d : Data) (uid : ℕ) (name : Bytes) : Prop :=
  ∃ u, d.users[uid]? = some u ∧ u.username = name

def LoggedIn (d : Data) (uid : ℕ) (name : Bytes) : Prop :=
  ∃ u, d.users[uid]? = some u ∧ u.username = name ∧ u.loggedIn = true

def LoggedOut (d : Data) (uid : ℕ) (name : Bytes) : Prop :=
  ∃ u, d.users[uid]? = some u ∧ u.username = name ∧ u.loggedIn = false

def Slot (d : Data) (w i : ℕ) (fd : ℤ) : Prop :=
  0 < i ∧ i < (d.pollSets w).size ∧ (d.pollSets w).fd i = fd

def Kind.Matches (r : Request) : Kind → Prop
  | login => r.action = Action.login.code
  | logout => r.action = Action.logout.code
  | seat .book i => r.action = Action.book.code ∧ parseSeatNumber r = some (i + 1)
  | seat .cancelBooking i => r.action = Action.cancelBooking.code ∧ parseSeatNumber r = some (i + 1)
  | confirmBooking b => r.action = Action.confirmBooking.code ∧
      r.text = if b then Call.available else Call.booked

def Kind.action : Kind → Action
  | login => .login
  | logout => .logout
  | seat .book _ => .book
  | seat .cancelBooking _ => .cancelBooking
  | confirmBooking _ => .confirmBooking

lemma Kind.Matches.action_eq {r : Request} {k : Kind} (h : k.Matches r) :
    r.action = k.action.code := by
  cases k with
  | login | logout => exact h
  | seat a i => cases a <;> exact h.1
  | confirmBooking b => exact h.1

lemma Kind.Matches.ne {r : Request} {k : Kind} {a : Action} (h : k.Matches r)
    (ha : k.action ≠ a) : r.action ≠ a.code := by
  rw [h.action_eq]
  exact Action.code_injective.ne ha

def Kind.Ready (r : Request) (active : Option Bytes) : Kind → Prop
  | login => active = none
  | logout => True
  | _ => active = some r.user

def Keeps (r : Request) (response : Response) : Prop :=
  r.action = Action.login.code ∨ r.action = Action.logout.code → response.code ≠ 0

def Point.Facts (d : Data) (w : ℕ) (c : Call) : Point → Prop
  | lockArray k => k.Matches c.request ∧ k.Ready c.request (d.activeUser w c.slot)
  | unlockArrayUnknown k => k ≠ .login ∧ k.Matches c.request
  | lockUser k uid => k.Matches c.request ∧ k.Ready c.request (d.activeUser w c.slot) ∧
      Named d uid c.request.user
  | unlockArray k uid => k.Matches c.request ∧ k.Ready c.request (d.activeUser w c.slot) ∧
      Named d uid c.request.user
  | unlockUser _ response => Keeps c.request response
  | loginUnlockUser _ => c.request.action = Action.login.code ∧ d.activeUser w c.slot = none
  | newLockUser uid => c.request.action = Action.login.code ∧ d.activeUser w c.slot = none ∧
      LoggedOut d uid c.request.user
  | newUnlockUser _ => c.request.action = Action.login.code ∧ d.activeUser w c.slot = none
  | newUnlockArray _ => c.request.action = Action.login.code ∧ d.activeUser w c.slot = none
  | saveActiveUser => c.request.action = Action.login.code ∧ d.activeUser w c.slot = none
  | logoutUnlockUser _ => c.request.action = Action.logout.code ∧
      d.activeUser w c.slot = some c.request.user
  | clearActiveUser => c.request.action = Action.logout.code ∧
      d.activeUser w c.slot = some c.request.user
  | lockSeat a uid i => (Kind.seat a i).Matches c.request ∧
      d.activeUser w c.slot = some c.request.user ∧ LoggedIn d uid c.request.user
  | unlockSeat a uid i _ => (Kind.seat a i).Matches c.request ∧
      d.activeUser w c.slot = some c.request.user ∧ LoggedIn d uid c.request.user
  | scanLock b uid i _ => (Kind.confirmBooking b).Matches c.request ∧
      d.activeUser w c.slot = some c.request.user ∧ LoggedIn d uid c.request.user ∧ i < numSeats
  | scanUnlock b uid i _ => (Kind.confirmBooking b).Matches c.request ∧
      d.activeUser w c.slot = some c.request.user ∧ LoggedIn d uid c.request.user ∧ i < numSeats
  | queryLock i => c.request.action = Action.query.code ∧ parseSeatNumber c.request = some (i + 1)
  | queryUnlock i _ => c.request.action = Action.query.code ∧
      parseSeatNumber c.request = some (i + 1)

def RemovePoint.Facts (d : Data) (w : ℕ) (fd : ℤ) : RemovePoint → Prop
  | lockPollSet => True
  | lockArray i name => Slot d w i fd ∧ d.activeUser w i = some name
  | unlockArrayUnknown i => Slot d w i fd ∧
      ∃ name, d.activeUser w i = some name ∧ ∀ uid, ¬ Named d uid name
  | lockUser i uid => Slot d w i fd ∧ ∃ name, d.activeUser w i = some name ∧ Named d uid name
  | unlockArray i uid => Slot d w i fd ∧ ∃ name, d.activeUser w i = some name ∧ Named d uid name
  | unlockUser i _ => Slot d w i fd
  | close i => Slot d w i fd
  | swap i => Slot d w i fd ∧ d.activeUser w i = none
  | unlockPollSet => True

def Pc.Facts (C : Config) (d : Data) (w : ℕ) : Pc → Prop
  | find fd _ _ => fd ≠ C.pipeOut w
  | found fd _ slot _ => fd ≠ C.pipeOut w ∧ ∀ i, slot = some i → Slot d w i fd
  | handler c p => c.fd ≠ C.pipeOut w ∧ Slot d w c.slot c.fd ∧ p.Facts d w c
  | respond c _ => c.fd ≠ C.pipeOut w ∧ Slot d w c.slot c.fd
  | remove fd _ p => fd ≠ C.pipeOut w ∧ p.Facts d w fd
  | _ => True

namespace Frame

variable {w : ℕ} {S : Set Mutex} {d d' : Data}

lemma slot (h : Frame w S d d') {i : ℕ} {fd : ℤ} (hs : Slot d w i fd) : Slot d' w i fd := by
  obtain ⟨hi, hlt, hfd⟩ := hs
  rcases h.pollSet with hp | ⟨⟨fd', hp⟩, _⟩
  · exact ⟨hi, hp ▸ hlt, hp ▸ hfd⟩
  · rw [Slot, hp]
    refine ⟨hi, Nat.lt_succ_of_lt hlt, ?_⟩
    rw [← hfd]
    exact Function.update_of_ne hlt.ne _ _

lemma active (h : Frame w S d d') {i : ℕ} {fd : ℤ} (hs : Slot d w i fd) :
    d'.activeUser w i = d.activeUser w i := by
  rcases h.pollSet with hp | ⟨⟨fd', hp⟩, _⟩
  · rw [Data.activeUser, hp, Data.activeUser]
  · rw [Data.activeUser, hp]
    exact Function.update_of_ne hs.2.1.ne _ _

lemma named (h : Frame w S d d') {uid : ℕ} {name : Bytes} (hn : Named d uid name) :
    Named d' uid name := by
  obtain ⟨u, hu, rfl⟩ := hn
  obtain ⟨u', hu', hname, _⟩ := h.user uid u hu
  exact ⟨u', hu', hname⟩

lemma loggedIn (h : Frame w S d d') {uid : ℕ} {name : Bytes} (hS : .user uid ∈ S)
    (hn : LoggedIn d uid name) : LoggedIn d' uid name := by
  obtain ⟨u, hu, hname, hl⟩ := hn
  obtain ⟨u', hu', _, _, he⟩ := h.user uid u hu
  rw [he hS] at hu'
  exact ⟨u, hu', hname, hl⟩

lemma point (h : Frame w S d d') {c : Call} {p : Point} (hS : p.held = S)
    (hs : Slot d w c.slot c.fd) (hp : p.Facts d w c) : p.Facts d' w c := by
  subst hS
  have ha := h.active hs
  cases p with
  | lockUser k uid => exact ⟨hp.1, ha ▸ hp.2.1, h.named hp.2.2⟩
  | unlockArray k uid => exact ⟨hp.1, ha ▸ hp.2.1, h.named hp.2.2⟩
  | newLockUser uid =>
    obtain ⟨u, hu, hname, hl⟩ := hp.2.2
    refine ⟨hp.1, ha ▸ hp.2.1, u, ?_, hname, hl⟩
    rw [h.users (by simp [Point.held]), hu]
  | lockSeat a uid i => exact ⟨hp.1, ha ▸ hp.2.1, h.loggedIn (by simp [Point.held]) hp.2.2⟩
  | unlockSeat a uid i code => exact ⟨hp.1, ha ▸ hp.2.1, h.loggedIn (by simp [Point.held]) hp.2.2⟩
  | scanLock b uid i selected =>
    exact ⟨hp.1, ha ▸ hp.2.1, h.loggedIn (by simp [Point.held]) hp.2.2.1, hp.2.2.2⟩
  | scanUnlock b uid i selected =>
    exact ⟨hp.1, ha ▸ hp.2.1, h.loggedIn (by simp [Point.held]) hp.2.2.1, hp.2.2.2⟩
  | _ =>
    simp only [Point.Facts, ha] at hp ⊢
    exact hp

lemma removePoint (h : Frame w S d d') {fd : ℤ} {p : RemovePoint} (hS : p.held w = S)
    (hp : p.Facts d w fd) : p.Facts d' w fd := by
  subst hS
  cases p with
  | lockPollSet => trivial
  | lockArray i name => exact ⟨h.slot hp.1, (h.active hp.1).trans hp.2⟩
  | unlockArrayUnknown i =>
    obtain ⟨hs, name, hname, hno⟩ := hp
    refine ⟨h.slot hs, name, (h.active hs).trans hname, fun uid hn => hno uid ?_⟩
    rwa [Named, h.users (by simp [RemovePoint.held])] at hn
  | lockUser i uid | unlockArray i uid =>
    obtain ⟨hs, name, hname, hn⟩ := hp
    exact ⟨h.slot hs, name, (h.active hs).trans hname, h.named hn⟩
  | unlockUser i uid => exact h.slot hp
  | close i => exact h.slot hp
  | swap i => exact ⟨h.slot hp.1, (h.active hp.1).trans hp.2⟩
  | unlockPollSet => trivial

lemma facts {C : Config} {pc : Pc} (h : Frame w (pc.held w) d d') (hp : pc.Facts C d w) :
    pc.Facts C d' w := by
  cases pc with
  | found fd r slot rest => exact ⟨hp.1, fun i hi => h.slot (hp.2 i hi)⟩
  | handler c p => exact ⟨hp.1, h.slot hp.2.1, h.point rfl hp.2.1 hp.2.2⟩
  | respond c response => exact ⟨hp.1, h.slot hp.2⟩
  | remove fd rest p => exact ⟨hp.1, h.removePoint rfl hp.2⟩
  | _ => exact hp

end Frame

end SystemsLab.Reservation
