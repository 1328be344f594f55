import SystemsLab.Reservation.Seats
import SystemsLab.Threads.Runs

namespace SystemsLab.Reservation

open CLib Threads Function

variable {C : Config}

namespace SeatAction

def action : SeatAction → Action
  | book => .book
  | cancelBooking => .cancelBooking

def success : SeatAction → Int32
  | book => BookErrorCode.success.code
  | cancelBooking => CancelBookingErrorCode.success.code

def op (user : Bytes) : SeatAction → SeatOp
  | book => .book user
  | cancelBooking => .cancel user

lemma success_eq_zero (a : SeatAction) : a.success = 0 := by cases a <;> rfl

end SeatAction

def Pc.performs : Pc → Pc → Option (ℕ × SeatOp)
  | handler c (.lockSeat a _ i), handler _ (.unlockSeat _ _ _ code) =>
    if code = a.success then some (i, a.op c.request.user) else none
  | _, _ => none

def operations (s : Server C) (t : Thread C.nCores) (_ : Oracle) (s' : Server C) :
    List (ℕ × SeatOp) :=
  ((s.pc t).performs (s'.pc t)).toList

def onSeat (i : ℕ) (l : List (ℕ × SeatOp)) : List SeatOp :=
  (l.filter fun x => x.1 == i).map Prod.snd

def Call.confirmed (c : Call) (response : Response) (a : SeatAction) : Option (ℕ × SeatOp) :=
  if c.request.action = a.action.code ∧ response.code = a.success then
    (parseSeatNumber c.request).map fun n => (n - 1, a.op c.request.user)
  else none

def Pc.confirms : Pc → Option (ℕ × SeatOp)
  | respond c response => (c.confirmed response .book).or (c.confirmed response .cancelBooking)
  | _ => none

def Pc.confirming : Pc → Option (ℕ × SeatOp)
  | handler c (.unlockSeat a _ i code) =>
    if code = a.success then some (i, a.op c.request.user) else none
  | handler c (.unlockUser _ response) => (respond c response).confirms
  | pc => pc.confirms

def performed (w : Fin C.nCores) (s : Server C) (t : Thread C.nCores) (o : Oracle)
    (s' : Server C) : List (ℕ × SeatOp) :=
  if t = .worker w then operations s t o s' else []

def confirmed (w : Fin C.nCores) (s : Server C) (t : Thread C.nCores) (_ : Oracle)
    (_ : Server C) : List (ℕ × SeatOp) :=
  if t = .worker w then (s.pc t).confirms.toList else []

section History

variable {w i : ℕ} {d d' : Data}

@[simp] lemma onSeat_nil (i : ℕ) : onSeat i [] = [] := rfl

lemma onSeat_append (i : ℕ) (l l' : List (ℕ × SeatOp)) :
    onSeat i (l ++ l') = onSeat i l ++ onSeat i l' := by
  rw [onSeat, List.filter_append, List.map_append, onSeat, onSeat]

lemma history_setSeat (d : Data) (i j : ℕ) (s : Seat) (op : SeatOp) :
    (d.setSeat j s op).history i = d.history i ++ onSeat i [(j, op)] := by
  rw [Data.setSeat_history]
  by_cases hij : i = j
  · subst j
    simp [onSeat]
  · rw [update_of_ne hij]
    simp [onSeat, Ne.symm hij]

lemma HandlerStep.history {c : Call} {salt : Bytes} {p : Point} {pc : Pc}
    (h : HandlerStep C w c salt d p d' pc) (i : ℕ) :
    d'.history i = d.history i ++ onSeat i ((Pc.handler c p).performs pc).toList := by
  cases h with
  | book | cancel => exact history_setSeat ..
  | _ => exact (List.append_nil _).symm

lemma WorkerStep.history {o : Oracle} {pc pc' : Pc} (h : WorkerStep C w o d pc d' pc') (i : ℕ) :
    d'.history i = d.history i ++ onSeat i (pc.performs pc').toList := by
  cases h with
  | handler h => exact h.history i
  | remove h => cases h <;> exact (List.append_nil _).symm
  | _ => exact (List.append_nil _).symm

lemma server_history {s s' : Server C} {t : Thread C.nCores} {o : Oracle}
    (h : (server C).step s t o = .next s') (i : ℕ) :
    s'.data.history i = s.data.history i ++ onSeat i (operations s t o s') := by
  cases t with
  | main =>
    obtain ⟨p, d', p', hp, hm, rfl, -⟩ := main_step h
    rw [operations, hp, hm.seats.2]
    exact (List.append_nil _).symm
  | worker w =>
    obtain ⟨d', pc', hc, rfl, hpc⟩ := worker_step h
    rw [operations, hpc, update_self]
    exact (workerCode_step hc).history i

lemma HandlerStep.lockSeat {c : Call} {salt : Bytes} {a : SeatAction} {uid : ℕ} {pc : Pc}
    (h : HandlerStep C w c salt d (.lockSeat a uid i) d' pc) :
    ∃ code, pc = .handler c (.unlockSeat a uid i code) ∧
      d'.history = if code = a.success then
        update d.history i (d.history i ++ [a.op c.request.user]) else d.history := by
  cases h with
  | seatUnavailable | seatNotBooked => exact ⟨_, rfl, (if_neg (by decide)).symm⟩
  | book | cancel => exact ⟨_, rfl, (if_pos rfl).symm⟩

def Pc.Last (d : Data) : Pc → Prop
  | handler c (.unlockSeat a _ i code) =>
    code = a.success → (d.history i).getLast? = some (a.op c.request.user)
  | _ => True

lemma HandlerStep.last {c : Call} {salt : Bytes} {p : Point} {pc : Pc}
    (h : HandlerStep C w c salt d p d' pc) : pc.Last d' := by
  cases h with
  | seatUnavailable | seatNotBooked => exact fun hcode => absurd hcode (by decide)
  | book | cancel =>
    intro _
    rw [history_setSeat]
    simp [onSeat, SeatAction.op]
  | _ => trivial

lemma Entered.last {c : Call} {active : Option Bytes} {pc : Pc} (h : Entered c active pc) :
    pc.Last d := by
  cases h <;> trivial

lemma WorkerStep.last {o : Oracle} {pc pc' : Pc} (h : WorkerStep C w o d pc d' pc') :
    pc'.Last d' := by
  cases h with
  | handler h => exact h.last
  | remove h => cases h <;> trivial
  | enter => exact (handleRequest_entered _ _).last
  | _ => trivial

lemma Frame.last {pc : Pc} (h : Frame w (pc.held w) d d') (hp : pc.Last d) : pc.Last d' := by
  cases pc with
  | handler c p =>
    cases p with
    | unlockSeat a uid i code =>
      have hkept := (h.seat i (by simp [Pc.held, Point.held])).2
      rw [Pc.Last, hkept]
      exact hp
    | _ => trivial
  | _ => trivial

lemma Reachable.last {s : Server C} (hs : Reachable C s) (w : Fin C.nCores) :
    (s.pc (.worker w)).Last s.data := by
  refine Program.Reachable.invariant (fun a : Server C => (a.pc (.worker w)).Last a.data) hs
    trivial fun a b t o hr hl he => ?_
  by_cases ht : t = .worker w
  · subst t
    obtain ⟨d', pc', hc, rfl, hpc⟩ := worker_step he
    rw [hpc, update_self]
    exact (workerCode_step hc).last
  · obtain ⟨hf, hpc⟩ := frame (Reachable.owns hr) he ht
    rw [hpc]
    exact hf.last hl

end History

section Responses

variable {w : ℕ} {d d' : Data} {c : Call}

lemma confirms_of_code {response : Response} (h : response.code ≠ 0) :
    (Pc.respond c response).confirms = none := by
  have hno : ∀ a, c.confirmed response a = none := fun a =>
    if_neg fun hc => h (hc.2.trans a.success_eq_zero)
  rw [Pc.confirms, hno, hno]
  rfl

lemma confirms_of_action {response : Response} (h : ∀ a : SeatAction,
    c.request.action ≠ a.action.code) : (Pc.respond c response).confirms = none := by
  have hno : ∀ a, c.confirmed response a = none := fun a => if_neg fun hc => h a hc.1
  rw [Pc.confirms, hno, hno]
  rfl

lemma confirms_of_matches {a : SeatAction} {i : ℕ} (h : (Kind.seat a i).Matches c.request)
    (code : Int32) : (Pc.respond c (setResponse code)).confirms =
      if code = a.success then some (i, a.op c.request.user) else none := by
  cases a with
  | book =>
    obtain ⟨haction, hseat⟩ := h
    have hno : c.confirmed (setResponse code) .cancelBooking = none :=
      if_neg fun hc => absurd (haction.symm.trans hc.1) (by decide)
    rw [Pc.confirms, hno, Option.or_none, Call.confirmed, hseat]
    exact if_congr (and_iff_right haction) rfl rfl
  | cancelBooking =>
    obtain ⟨haction, hseat⟩ := h
    have hno : c.confirmed (setResponse code) .book = none :=
      if_neg fun hc => absurd (haction.symm.trans hc.1) (by decide)
    rw [Pc.confirms, hno, Option.none_or, Call.confirmed, hseat]
    exact if_congr (and_iff_right haction) rfl rfl

lemma SeatAction.ne_action {r : Request} {b : Action} (h : r.action = b.code) (hbook : b ≠ .book)
    (hcancel : b ≠ .cancelBooking) (a : SeatAction) : r.action ≠ a.action.code := by
  rw [h]
  refine Action.code_injective.ne ?_
  cases a with
  | book => exact hbook
  | cancelBooking => exact hcancel

lemma Entered.confirming {active : Option Bytes} {pc : Pc} (h : Entered c active pc) :
    pc.confirming = none := by
  cases h with
  | respond hcode => exact confirms_of_code hcode
  | lockArray | query => rfl

lemma Kind.userUnknown_ne_zero (k : Kind) : k.userUnknown ≠ 0 := by
  cases k with
  | logout => exact (by decide : LogoutErrorCode.userNotFound.code ≠ 0)
  | login => exact Kind.login.notLoggedIn_ne_zero
  | seat a i => exact (Kind.seat a i).notLoggedIn_ne_zero
  | confirmBooking b => exact (Kind.confirmBooking b).notLoggedIn_ne_zero

lemma HandlerStep.confirming {salt : Bytes} {p : Point} {pc : Pc}
    (h : HandlerStep C w c salt d p d' pc) (hp : p.Facts d w c) :
    (Pc.handler c p).confirming.toList ++ ((Pc.handler c p).performs pc).toList =
      pc.confirming.toList := by
  have hno : ∀ {response : Response}, (Pc.respond c response).confirms = none →
      [] = ((Pc.respond c response).confirms).toList := by
    intro response h
    rw [h, Option.toList_none]
  cases h with
  | refuse hr => exact hno (confirms_of_code hr.code_ne_zero)
  | unlockArrayUnknown k => exact hno (confirms_of_code k.userUnknown_ne_zero)
  | saveActiveUser => exact hno (confirms_of_action (SeatAction.ne_action hp.1 (by decide) (by decide)))
  | clearActiveUser | queryUnlock =>
    exact hno (confirms_of_action (SeatAction.ne_action hp.1 (by decide) (by decide)))
  | scanEnd =>
    exact hno (confirms_of_action (SeatAction.ne_action hp.1.1 (by decide) (by decide)))
  | unlockSeat a uid i code =>
    exact (List.append_nil _).trans (congrArg Option.toList (confirms_of_matches hp.1 code).symm)
  | unlockUser => exact List.append_nil _
  | _ => rfl

lemma WorkerStep.confirming {o : Oracle} {pc pc' : Pc} (h : WorkerStep C w o d pc d' pc')
    (hp : pc.Facts C d w) :
    pc.confirming.toList ++ (pc.performs pc').toList =
      pc.confirms.toList ++ pc'.confirming.toList := by
  cases h with
  | handler h => exact h.confirming hp.2.2
  | enter =>
    rw [(handleRequest_entered _ _).confirming]
    rfl
  | sent | unsent => rfl
  | remove h => cases h <;> rfl
  | _ => rfl

lemma confirming_step {s s' : Server C} {t : Thread C.nCores} {o : Oracle} (w : Fin C.nCores)
    (hs : Reachable C s) (h : (server C).step s t o = .next s') :
    (s.pc (.worker w)).confirming.toList ++ performed w s t o s' =
      confirmed w s t o s' ++ (s'.pc (.worker w)).confirming.toList := by
  by_cases ht : t = .worker w
  · subst t
    obtain ⟨d', pc', hc, -, hpc⟩ := worker_step h
    rw [performed, confirmed, if_pos rfl, if_pos rfl, operations, hpc, update_self]
    exact (workerCode_step hc).confirming ((Reachable.local hs).facts w)
  · rw [performed, confirmed, if_neg ht, if_neg ht, (frame (Reachable.owns hs) h ht).2,
      List.append_nil, List.nil_append]

end Responses

theorem seat_history (C : Config) (l : List (Thread C.nCores × Oracle)) (s : Server C)
    (hrun : (server C).run (initialState C) l = some s) :
    (∀ i, s.data.history i = onSeat i ((server C).trace operations (initialState C) l)) ∧
    (∀ w, (server C).trace (performed w) (initialState C) l =
      (server C).trace (confirmed w) (initialState C) l ++
        (s.pc (.worker w)).confirming.toList) ∧
    (∀ w c a uid i o s', s.pc (.worker w) = .handler c (.lockSeat a uid i) →
      (server C).step s (.worker w) o = .next s' →
      ∃ code, s'.pc (.worker w) = .handler c (.unlockSeat a uid i code) ∧
        s'.data.history = if code = a.success then
          update s.data.history i (s.data.history i ++ [a.op c.request.user])
        else s.data.history) ∧
    (∀ w c a uid i code, s.pc (.worker w) = .handler c (.unlockSeat a uid i code) →
      (code = a.success → (s.data.history i).getLast? = some (a.op c.request.user)) ∧
      ∀ t o s', (server C).step s t o = .next s' → s'.data.history i = s.data.history i) ∧
    (∀ i, Alternates (s.data.history i)) ∧
    (∀ i, s.owner (.seat i) = none →
      (s.data.seats i).stats.id = (defaultSeats i).stats.id ∧
      (s.data.seats i).stats.amountOfTimesBooked = UInt64.ofNat (books (s.data.history i)) ∧
      (s.data.seats i).stats.amountOfTimesCanceled = UInt64.ofNat (cancels (s.data.history i)) ∧
      (s.data.seats i).stats.amountOfTimesBooked - (s.data.seats i).stats.amountOfTimesCanceled =
        if (s.data.seats i).userWhoBooked.isSome then 1 else 0) ∧
    (∀ w c response, s.pc (.worker w) = .respond c response →
      c.request.action = Action.query.code → response.code = QueryErrorCode.success.code →
      ∃ stats, response = Call.statsResponse stats ∧
        (stats.amountOfTimesBooked = stats.amountOfTimesCanceled ∨
          stats.amountOfTimesBooked = stats.amountOfTimesCanceled + 1)) := by
  have hs : Reachable C s := Program.Reachable.run .init hrun
  refine ⟨fun i => ?_, fun w => ?_, fun w c a uid i o s' hpc he => ?_,
    fun w c a uid i code hpc => ⟨?_, fun t o s' he => ?_⟩,
    fun i => (Reachable.seatOk hs i).alternates, fun i _ => ?_, fun w c response hpc => ?_⟩
  · refine Program.run_induction (J := fun l (a : Server C) =>
      a.data.history i = onSeat i ((server C).trace operations (initialState C) l))
      rfl (fun l a t o b hl ih he => ?_) hrun
    rw [Program.trace_concat hl he, onSeat_append, ← ih]
    exact server_history he i
  · have hstep : ∀ a t o b, Reachable C a → (server C).step a t o = .next b →
        (a.pc (.worker w)).confirming.toList ++ performed w a t o b =
          confirmed w a t o b ++ (b.pc (.worker w)).confirming.toList :=
      fun a t o b hr he => confirming_step w hr he
    exact Program.trace_balance hstep .init hrun
  · obtain ⟨d', pc', hc, rfl, hpc'⟩ := worker_step he
    rw [hpc] at hc
    rw [hpc', update_self]
    cases workerCode_step hc with
    | handler h => exact h.lockSeat
  · have hlast := Reachable.last hs w
    rw [hpc] at hlast
    exact hlast
  · by_cases ht : t = .worker w
    · subst t
      obtain ⟨d', pc', hc, rfl, -⟩ := worker_step he
      rw [hpc] at hc
      have hd : s.data = s'.data := (Prod.mk.inj (Outcome.next.inj hc)).1
      rw [hd]
    · refine ((frame (Reachable.owns hs) he ht).1.seat i ?_).2
      rw [hpc]
      simp [Pc.held, Point.held]
  · have hok := Reachable.seatOk hs i
    exact ⟨hok.id, hok.booked, hok.canceled, hok.difference⟩
  · have hq := Reachable.queryOk hs w
    rw [hpc] at hq
    exact hq

theorem seat_history_cancelled :
    let s := after oneCore cancelRun
    s.data.history 0 = [.book [97], .cancel [97]] ∧ Alternates (s.data.history 0) ∧
      (server oneCore).trace (performed (0 : Fin 1)) (initialState oneCore) cancelRun =
        (server oneCore).trace (confirmed (0 : Fin 1)) (initialState oneCore) cancelRun ∧
      (server oneCore).trace (confirmed (0 : Fin 1)) (initialState oneCore) cancelRun =
        [(0, .book [97]), (0, .cancel [97])] ∧
      (s.data.seats 0).stats.amountOfTimesBooked - (s.data.seats 0).stats.amountOfTimesCanceled = 0 := by
  intro s
  obtain ⟨-, hconfirmed, -, -, halternates, hcounts, -⟩ := seat_history oneCore cancelRun s rfl
  refine ⟨?_, halternates 0, ?_, ?_, ?_⟩
  · rfl
  · exact (hconfirmed (0 : Fin 1)).trans (List.append_nil _)
  · rfl
  · exact (hcounts 0 rfl).2.2.2

end SystemsLab.Reservation
