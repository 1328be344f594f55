import SystemsLab.Reservation.Seats
import SystemsLab.Reservation.Sessions
import SystemsLab.Threads.Runs

namespace SystemsLab.Reservation

open CLib Threads Function

variable {C : Config}

section Numbers

variable {g g' : ℕ → Bool} {n : ℕ}

end Numbers

section Turns

variable {c : Call} {b : Bool} {uid w : ℕ} {g : ℕ → Bool} {n : ℕ} {d d' : Data} {o : Oracle}
  {pc' : Pc}

end Turns

section Runs

variable {s s' : Server C} {w : Fin C.nCores} {c : Call} {b : Bool} {uid : ℕ}
  {l : List (Thread C.nCores × Oracle)}

end Runs

section Origins

def Begins (w : Fin C.nCores) (c : Call) (b : Bool) (uid : ℕ) (s : Server C) : Prop :=
  ∃ s₀ o, Reachable C s₀ ∧
    s₀.pc (.worker w) = .handler c (.unlockArray (.confirmBooking b) uid) ∧
    (server C).step s₀ (.worker w) o = .next s ∧
    s.pc (.worker w) = .handler c (.scanLock b uid 0 [])

def Scanned (w : Fin C.nCores) (c : Call) (b : Bool) (uid n : ℕ) (a : Server C) : Prop :=
  ∃ s l, Begins w c b uid s ∧ (server C).run s l = some a ∧ Program.turns (.worker w) l = n

def Pc.Origin (w : Fin C.nCores) (a : Server C) : Pc → Prop
  | handler c (.scanLock b uid i _) => Scanned w c b uid (2 * i) a
  | handler c (.scanUnlock b uid i _) => Scanned w c b uid (2 * i + 1) a
  | handler c (.unlockUser uid response) => c.request.action = Action.confirmBooking.code →
      response.code = ConfirmBookingErrorCode.success.code →
      ∃ b, Scanned w c b uid (2 * numSeats) a
  | respond c response => c.request.action = Action.confirmBooking.code →
      response.code = ConfirmBookingErrorCode.success.code →
      ∃ b uid, Scanned w c b uid (2 * numSeats + 1) a
  | _ => True

variable {s s' : Server C} {w : Fin C.nCores} {c : Call} {o : Oracle}

lemma Begins.reachable {b : Bool} {uid : ℕ} (h : Begins w c b uid s) : Reachable C s := by
  obtain ⟨s₀, o, hs₀, -, he, -⟩ := h
  exact hs₀.step he

lemma Begins.pc {b : Bool} {uid : ℕ} (h : Begins w c b uid s) :
    s.pc (.worker w) = .handler c (.scanLock b uid 0 []) := by
  obtain ⟨-, -, -, -, -, hpc⟩ := h
  exact hpc

lemma Scanned.turn {b : Bool} {uid n : ℕ} (h : Scanned w c b uid n s)
    (he : (server C).step s (.worker w) o = .next s') : Scanned w c b uid (n + 1) s' := by
  obtain ⟨s₁, l, hs₁, hrun, rfl⟩ := h
  refine ⟨s₁, l ++ [(.worker w, o)], hs₁, Program.run_concat.mpr ⟨s, hrun, he⟩, ?_⟩
  rw [Program.turns_append, Program.turns_self]

lemma Scanned.other {b : Bool} {uid n : ℕ} {t : Thread C.nCores} (h : Scanned w c b uid n s)
    (ht : t ≠ .worker w) (he : (server C).step s t o = .next s') : Scanned w c b uid n s' := by
  obtain ⟨s₁, l, hs₁, hrun, rfl⟩ := h
  refine ⟨s₁, l ++ [(t, o)], hs₁, Program.run_concat.mpr ⟨s, hrun, he⟩, ?_⟩
  rw [Program.turns_append, Program.turns_other ht, Nat.add_zero]

lemma Pc.Origin.other {t : Thread C.nCores} {pc : Pc} (h : pc.Origin w s) (ht : t ≠ .worker w)
    (he : (server C).step s t o = .next s') : pc.Origin w s' := by
  cases pc with
  | handler c p =>
    cases p with
    | scanLock | scanUnlock => exact Scanned.other h ht he
    | unlockUser uid response =>
      intro ha hc
      obtain ⟨b, hb⟩ := h ha hc
      exact ⟨b, hb.other ht he⟩
    | _ => trivial
  | respond c response =>
    intro ha hc
    obtain ⟨b, uid, hb⟩ := h ha hc
    exact ⟨b, uid, hb.other ht he⟩
  | _ => trivial

lemma confirm_refused (b : Bool) :
    (Kind.confirmBooking b).notLoggedIn ≠ ConfirmBookingErrorCode.success.code := by
  cases b <;> decide

lemma Entered.origin {active : Option Bytes} {pc : Pc} (h : Entered c active pc)
    (ha : c.request.action ≠ Action.confirmBooking.code) : pc.Origin w s := by
  cases h with
  | respond => exact fun h => absurd h ha
  | lockArray | query => trivial

lemma origin_handleRequest (c : Call) (active : Option Bytes) :
    (c.handleRequest active).Origin w s := by
  by_cases ha : c.request.action = Action.confirmBooking.code
  · have hr : c.handleRequest active = c.handleConfirmBookingRequest active := by
      rw [Call.handleRequest, ha]
      rfl
    rw [hr, Call.handleConfirmBookingRequest]
    simp only [Call.lockLoggedInUser]
    split_ifs
    · exact fun _ hc => absurd hc (by decide)
    · exact fun _ hc => absurd hc (by decide)
    · trivial
    · exact fun _ hc => absurd hc (confirm_refused (c.request.text == Call.available))
  · exact (handleRequest_entered c active).origin ha

lemma HandlerStep.origin {salt : Bytes} {d : Data} {p : Point} {pc : Pc}
    (h : HandlerStep C w c salt s.data p d pc) (hs : Reachable C s)
    (hpcs : s.pc (.worker w) = .handler c p) (hpc : s'.pc (.worker w) = pc)
    (hp : p.Facts s.data w c) (ho : (Pc.handler c p).Origin w s)
    (he : (server C).step s (.worker w) o = .next s') : pc.Origin w s' := by
  cases h with
  | refuse hr => exact fun _ hc => absurd hc hr.code_ne_zero
  | scan => exact ⟨s', [], ⟨s, o, hs, hpcs, he, hpc⟩, rfl, rfl⟩
  | unlockArrayUnknown k =>
    intro ha hc
    cases k with
    | confirmBooking b => exact absurd hc (confirm_refused b)
    | seat a i => exact absurd ha (hp.2.ne (by cases a <;> nofun))
    | login | logout => exact absurd ha (hp.2.ne nofun)
  | unlockUser uid response =>
    intro ha hc
    obtain ⟨b, hb⟩ := ho ha hc
    exact ⟨b, uid, hb.turn he⟩
  | unlockSeat a => exact fun ha => absurd ha (hp.1.ne (by cases a <;> nofun))
  | scanLock | scanNext => exact Scanned.turn ho he
  | @scanEnd b uid i selected hlast =>
    have hi : i < numSeats := hp.2.2.2
    have hscan := Scanned.turn ho he
    have hend : 2 * i + 1 + 1 = 2 * numSeats := by omega
    rw [hend] at hscan
    exact fun _ _ => ⟨b, hscan⟩
  | saveActiveUser | clearActiveUser | queryUnlock =>
    exact fun ha => absurd ha (by rw [hp.1]; decide)
  | _ => trivial

lemma WorkerStep.origin {d : Data} {pc pc' : Pc} (h : WorkerStep C w o s.data pc d pc')
    (hs : Reachable C s) (hpcs : s.pc (.worker w) = pc) (hpc : s'.pc (.worker w) = pc')
    (hp : pc.Facts C s.data w) (ho : pc.Origin w s)
    (he : (server C).step s (.worker w) o = .next s') : pc'.Origin w s' := by
  cases h with
  | handler h => exact h.origin hs hpcs hpc hp.2.2 ho he
  | remove h => cases h <;> trivial
  | enter => exact origin_handleRequest _ _
  | _ => trivial

lemma Reachable.origin (hs : Reachable C s) (w : Fin C.nCores) :
    (s.pc (.worker w)).Origin w s := by
  refine Program.Reachable.invariant (fun a : Server C => ∀ w, (a.pc (.worker w)).Origin w a) hs
    (fun _ => trivial) (fun a b t o hr ho he v => ?_) w
  by_cases ht : t = .worker v
  · subst t
    obtain ⟨d', pc', hc, -, hpc⟩ := worker_step he
    have hb : b.pc (.worker v) = pc' := by rw [hpc, update_self]
    rw [hb]
    exact (workerCode_step hc).origin hr rfl hb ((Reachable.local hr).facts v) (ho v) he
  · rw [(frame (Reachable.owns hr) he ht).2]
    exact (ho v).other ht he

end Origins

section Alone

variable {s : Server C} {w : Fin C.nCores} {c : Call} {b : Bool} {uid : ℕ} {o : Oracle}

def scanNext (c : Call) (b : Bool) (uid i : ℕ) (selected : List UInt64) : Pc :=
  if i + 1 < numSeats then .handler c (.scanLock b uid (i + 1) selected)
  else .handler c (.unlockUser uid (Call.seatsResponse selected))

end Alone

end SystemsLab.Reservation
