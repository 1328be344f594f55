import SystemsLab.Reservation.Descriptors

namespace SystemsLab.Reservation

open CLib Threads

inductive SeatStep (d d' : Data) (pc : Pc) : Prop
  | same (hs : d'.seats = d.seats) (hh : d'.history = d.history)
  | book {c : Call} {uid i : ℕ} (hpc : pc = .handler c (.lockSeat .book uid i))
      (hfree : (d.seats i).userWhoBooked = none)
      (h : d' = d.setSeat i ((d.seats i).book c.request.user) (.book c.request.user))
  | cancel {c : Call} {uid i : ℕ} (hpc : pc = .handler c (.lockSeat .cancelBooking uid i))
      (howner : (d.seats i).userWhoBooked = some c.request.user)
      (h : d' = d.setSeat i (d.seats i).cancel (.cancel c.request.user))

lemma WorkerStep.seats {C : Config} {w : ℕ} {o : Oracle} {d d' : Data} {pc pc' : Pc}
    (h : WorkerStep C w o d pc d' pc') : SeatStep d d' pc := by
  cases h with
  | handler h =>
    cases h with
    | book hb => exact .book rfl hb rfl
    | cancel hb => exact .cancel rfl hb rfl
    | _ => exact .same rfl rfl
  | remove h => cases h <;> exact .same rfl rfl
  | _ => exact .same rfl rfl

lemma MainStep.seats {d d' : Data} {p p' : MainPoint} (h : MainStep d d' p p') :
    d'.seats = d.seats ∧ d'.history = d.history := by
  cases h with
  | accept _ hd | pass hd | give _ hd | drop hd =>
    subst hd
    exact ⟨rfl, rfl⟩

lemma server_seats {C : Config} {s s' : Server C} {t : Thread C.nCores} {o : Oracle}
    (h : (server C).step s t o = .next s') : SeatStep s.data s'.data (s.pc t) := by
  cases t with
  | main =>
    obtain ⟨p, d', p', _, hc, rfl, _⟩ := main_step h
    exact .same hc.seats.1 hc.seats.2
  | worker w =>
    obtain ⟨d', pc', hc, rfl, _⟩ := worker_step h
    exact (workerCode_step hc).seats

section History

def Alternates (h : List SeatOp) : Prop :=
  ∀ (k : ℕ) (op : SeatOp), h[k]? = some op → match op with
    | .book _ => k % 2 = 0
    | .cancel user => k % 2 = 1 ∧ h[k - 1]? = some (.book user)

def SeatOp.isBook : SeatOp → Bool
  | book _ => true
  | cancel _ => false

def books (h : List SeatOp) : ℕ := h.countP SeatOp.isBook

def cancels (h : List SeatOp) : ℕ := h.countP fun op => !op.isBook

variable {h : List SeatOp} {user : Bytes}

lemma books_append (op : SeatOp) : books (h ++ [op]) = books h + if op.isBook then 1 else 0 := by
  simp [books, List.countP_append, List.countP_singleton]

lemma cancels_append (op : SeatOp) :
    cancels (h ++ [op]) = cancels h + if op.isBook then 0 else 1 := by
  cases hb : op.isBook <;> simp [cancels, List.countP_append, hb]

lemma getElem?_append_of_some {k : ℕ} {op x : SeatOp} (hk : h[k]? = some op) :
    (h ++ [x])[k]? = some op := by
  rw [List.getElem?_append_left (List.getElem?_eq_some_iff.mp hk).1, hk]

lemma Alternates.append {x : SeatOp} (ha : Alternates h)
    (hx : match x with
      | .book _ => h.length % 2 = 0
      | .cancel user => h.length % 2 = 1 ∧ h[h.length - 1]? = some (.book user)) :
    Alternates (h ++ [x]) := by
  intro k op hk
  rcases Nat.lt_trichotomy k h.length with hlt | rfl | hgt
  · rw [List.getElem?_append_left hlt] at hk
    have hop := ha k op hk
    cases op with
    | book user => exact hop
    | cancel user => exact ⟨hop.1, getElem?_append_of_some hop.2⟩
  · rw [List.getElem?_concat_length, Option.some.injEq] at hk
    subst hk
    cases x with
    | book user => exact hx
    | cancel user => exact ⟨hx.1, getElem?_append_of_some hx.2⟩
  · rw [List.getElem?_eq_none (by simp; omega)] at hk
    cases hk

def OwnedSince (h : List SeatOp) : Option Bytes → Prop
  | none => h.length % 2 = 0 ∧ books h = cancels h
  | some user => h.length % 2 = 1 ∧ h[h.length - 1]? = some (.book user) ∧
      books h = cancels h + 1

structure SeatOk (i : ℕ) (s : Seat) (h : List SeatOp) : Prop where
  alternates : Alternates h
  id : s.stats.id = (defaultSeats i).stats.id
  booked : s.stats.amountOfTimesBooked = UInt64.ofNat (books h)
  canceled : s.stats.amountOfTimesCanceled = UInt64.ofNat (cancels h)
  owner : OwnedSince h s.userWhoBooked

namespace SeatOk

variable {i : ℕ} {s : Seat}

lemma default (i : ℕ) : SeatOk i (defaultSeats i) [] where
  alternates k op hk := by cases hk
  id := rfl
  booked := rfl
  canceled := rfl
  owner := ⟨rfl, rfl⟩

lemma book (hs : SeatOk i s h) (hfree : s.userWhoBooked = none) (user : Bytes) :
    SeatOk i (s.book user) (h ++ [.book user]) := by
  have ho := hs.owner
  rw [hfree] at ho
  obtain ⟨heven, hcount⟩ := ho
  refine ⟨hs.alternates.append heven, hs.id, ?_, ?_, ?_, ?_, ?_⟩
  · simp [Seat.book, hs.booked, books_append, SeatOp.isBook, UInt64.ofNat_add]
  · simp [Seat.book, hs.canceled, cancels_append, SeatOp.isBook]
  · rw [List.length_append, List.length_singleton]
    omega
  · simp
  · simp [books_append, cancels_append, SeatOp.isBook, hcount]

lemma cancel (hs : SeatOk i s h) (howner : s.userWhoBooked = some user) :
    SeatOk i s.cancel (h ++ [.cancel user]) := by
  have ho := hs.owner
  rw [howner] at ho
  obtain ⟨hodd, hlast, hcount⟩ := ho
  refine ⟨hs.alternates.append ⟨hodd, hlast⟩, hs.id, ?_, ?_, ?_, ?_⟩
  · simp [Seat.cancel, hs.booked, books_append, SeatOp.isBook]
  · simp [Seat.cancel, hs.canceled, cancels_append, SeatOp.isBook, UInt64.ofNat_add]
  · rw [List.length_append, List.length_singleton]
    omega
  · simp [books_append, cancels_append, SeatOp.isBook, hcount]

lemma difference (hs : SeatOk i s h) : s.stats.amountOfTimesBooked - s.stats.amountOfTimesCanceled =
    if s.userWhoBooked.isSome then 1 else 0 := by
  have ho := hs.owner
  rw [hs.booked, hs.canceled]
  cases hu : s.userWhoBooked with
  | none =>
    rw [hu] at ho
    simp [ho.2]
  | some user =>
    rw [hu] at ho
    rw [ho.2.2, UInt64.ofNat_add, UInt64.add_comm, UInt64.add_sub_cancel]
    rfl

end SeatOk

lemma SeatStep.seatOk {d d' : Data} {pc : Pc} (h : SeatStep d d' pc)
    (hok : ∀ i, SeatOk i (d.seats i) (d.history i)) (i : ℕ) :
    SeatOk i (d'.seats i) (d'.history i) := by
  cases h with
  | same hs hh =>
    rw [hs, hh]
    exact hok i
  | @book c uid j hpc hfree h =>
    subst h
    by_cases hi : i = j
    · subst i
      simpa using (hok j).book hfree c.request.user
    · simpa [hi] using hok i
  | @cancel c uid j hpc howner h =>
    subst h
    by_cases hi : i = j
    · subst i
      simpa using (hok j).cancel howner
    · simpa [hi] using hok i

lemma Reachable.seatOk {C : Config} {s : Server C} (hs : Reachable C s) (i : ℕ) :
    SeatOk i (s.data.seats i) (s.data.history i) := by
  refine Program.Reachable.invariant
    (fun a : Server C => ∀ i, SeatOk i (a.data.seats i) (a.data.history i)) hs SeatOk.default
    (fun a b t o _ hok he => (server_seats he).seatOk hok) i

end History

section Queries

def Balanced (s : SeatStats) : Prop :=
  s.amountOfTimesBooked = s.amountOfTimesCanceled ∨
    s.amountOfTimesBooked = s.amountOfTimesCanceled + 1

lemma SeatOk.balanced {i : ℕ} {s : Seat} {h : List SeatOp} (hs : SeatOk i s h) :
    Balanced s.stats := by
  have ho := hs.owner
  rw [Balanced, hs.booked, hs.canceled]
  cases hu : s.userWhoBooked with
  | none =>
    rw [hu] at ho
    exact .inl (by rw [ho.2])
  | some user =>
    rw [hu] at ho
    exact .inr (by rw [ho.2.2, UInt64.ofNat_add]; rfl)

def AnswersQuery (r : Request) (response : Response) : Prop :=
  r.action = Action.query.code → response.code = QueryErrorCode.success.code →
    ∃ stats, response = Call.statsResponse stats ∧ Balanced stats

def Point.QueryOk (c : Call) : Point → Prop
  | queryLock _ => True
  | queryUnlock _ stats => Balanced stats
  | _ => c.request.action ≠ Action.query.code

def Pc.QueryOk : Pc → Prop
  | handler c p => p.QueryOk c
  | respond c response => AnswersQuery c.request response
  | _ => True

lemma answersQuery_of_action {r : Request} (h : r.action ≠ Action.query.code)
    (response : Response) : AnswersQuery r response := fun ha => absurd ha h

lemma answersQuery_of_code {r : Request} {response : Response} (h : response.code ≠ 0) :
    AnswersQuery r response := fun _ hc => absurd hc h

lemma Entered.queryOk {c : Call} {active : Option Bytes} {pc : Pc} (h : Entered c active pc) :
    pc.QueryOk := by
  cases h with
  | respond hcode => exact answersQuery_of_code hcode
  | @lockArray k hm =>
    refine hm.ne ?_
    cases k with
    | seat a i => cases a <;> simp [Kind.action]
    | login | logout | confirmBooking => simp [Kind.action]
  | query => trivial

lemma HandlerStep.queryOk {C : Config} {w : ℕ} {c : Call} {salt : Bytes} {d d' : Data} {p : Point}
    {pc : Pc} (h : HandlerStep C w c salt d p d' pc) (hp : p.QueryOk c)
    (hok : ∀ i, SeatOk i (d.seats i) (d.history i)) : pc.QueryOk := by
  cases h with
  | queryLock i => exact (hok i).balanced
  | queryUnlock i stats => exact fun _ _ => ⟨stats, rfl, hp⟩
  | unlockArrayUnknown | unlockUser | saveActiveUser | clearActiveUser =>
    exact answersQuery_of_action hp _
  | _ => exact hp

lemma WorkerStep.queryOk {C : Config} {w : ℕ} {o : Oracle} {d d' : Data} {pc pc' : Pc}
    (h : WorkerStep C w o d pc d' pc') (hp : pc.QueryOk)
    (hok : ∀ i, SeatOk i (d.seats i) (d.history i)) : pc'.QueryOk := by
  cases h with
  | handler h => exact h.queryOk hp hok
  | remove h => cases h <;> trivial
  | enter => exact (handleRequest_entered _ _).queryOk
  | _ => trivial

lemma Reachable.queryOk {C : Config} {s : Server C} (hs : Reachable C s) (w : Fin C.nCores) :
    (s.pc (.worker w)).QueryOk := by
  refine Program.Reachable.invariant (fun a : Server C => ∀ w, (a.pc (.worker w)).QueryOk) hs
    (fun _ => trivial) (fun a b t o hr hq he v => ?_) w
  cases t with
  | main =>
    rw [Program.step_pc_ne he (by simp)]
    exact hq v
  | worker u =>
    by_cases hv : v = u
    · subst v
      obtain ⟨d', pc', hc, rfl, hpc⟩ := worker_step he
      rw [hpc, Function.update_self]
      exact (workerCode_step hc).queryOk (hq u) (Reachable.seatOk hr)
    · rw [Program.step_pc_ne he (by simpa using hv)]
      exact hq v

end Queries

lemma SeatStep.worker {C : Config} {s s' : Server C} {t : Thread C.nCores} {o : Oracle} {c : Call}
    {p : Point} (h : (server C).step s t o = .next s') (hpc : s.pc t = .handler c p) :
    ∃ w, t = .worker w := by
  cases t with
  | main =>
    obtain ⟨q, _, _, hq, _⟩ := main_step h
    rw [hq] at hpc
    cases hpc
  | worker w => exact ⟨w, rfl⟩

lemma Reachable.atSeat {C : Config} {s s' : Server C} {t : Thread C.nCores} {o : Oracle} {c : Call}
    {a : SeatAction} {uid i : ℕ} (hs : Reachable C s) (h : (server C).step s t o = .next s')
    (hpc : s.pc t = .handler c (.lockSeat a uid i)) :
    ∃ w, t = .worker w ∧ Slot s.data w c.slot c.fd ∧ (Kind.seat a i).Matches c.request ∧
      s.data.activeUser w c.slot = some c.request.user ∧ LoggedIn s.data uid c.request.user := by
  obtain ⟨w, rfl⟩ := SeatStep.worker h hpc
  have hf := (Reachable.local hs).facts w
  rw [hpc] at hf
  obtain ⟨-, hslot, hm, hactive, hlogged⟩ := hf
  exact ⟨w, rfl, hslot, hm, hactive, hlogged⟩

theorem seat_ownership (C : Config) (s : Server C) (hs : Reachable C s) :
    (∀ t o s' i, (server C).step s t o = .next s' →
      (s'.data.seats i).userWhoBooked ≠ (s.data.seats i).userWhoBooked →
      ∃ (w : Fin C.nCores) (c : Call) (a : SeatAction) (uid : ℕ),
        t = .worker w ∧ s.pc t = .handler c (.lockSeat a uid i) ∧ Slot s.data w c.slot c.fd ∧
        s.data.activeUser w c.slot = some c.request.user ∧
        s'.data.activeUser w c.slot = some c.request.user ∧
        LoggedIn s.data uid c.request.user ∧ LoggedIn s'.data uid c.request.user ∧
        parseSeatNumber c.request = some (i + 1) ∧
        (c.request.action = Action.book.code ∧ (s.data.seats i).userWhoBooked = none ∧
            (s'.data.seats i).userWhoBooked = some c.request.user ∨
          c.request.action = Action.cancelBooking.code ∧
            (s.data.seats i).userWhoBooked = some c.request.user ∧
            (s'.data.seats i).userWhoBooked = none) ∧
        ∀ j, j ≠ i → (s'.data.seats j).userWhoBooked = (s.data.seats j).userWhoBooked) ∧
    (∀ w c a uid i code, s.pc (.worker w) = .handler c (.unlockSeat a uid i code) →
      s.data.activeUser w c.slot = some c.request.user ∧ LoggedIn s.data uid c.request.user) := by
  constructor
  · intro t o s' i he hne
    cases server_seats he with
    | same hs hh =>
      rw [hs] at hne
      exact absurd rfl hne
    | @book c uid j hpc hfree h =>
      obtain ⟨w, rfl, hslot, ⟨haction, hparse⟩, hactive, hlogged⟩ := hs.atSeat he hpc
      rw [h] at hne ⊢
      obtain rfl : i = j := Data.setSeat_changes hne
      refine ⟨w, c, .book, uid, rfl, hpc, hslot, hactive, hactive, hlogged, hlogged, hparse,
        .inl ⟨haction, hfree, ?_⟩, fun j hj => ?_⟩
      · rw [Data.setSeat_seats, Function.update_self, Seat.book]
      · rw [Data.setSeat_seats, Function.update_of_ne hj]
    | @cancel c uid j hpc howner h =>
      obtain ⟨w, rfl, hslot, ⟨haction, hparse⟩, hactive, hlogged⟩ := hs.atSeat he hpc
      rw [h] at hne ⊢
      obtain rfl : i = j := Data.setSeat_changes hne
      refine ⟨w, c, .cancelBooking, uid, rfl, hpc, hslot, hactive, hactive, hlogged, hlogged, hparse,
        .inr ⟨haction, howner, ?_⟩, fun j hj => ?_⟩
      · rw [Data.setSeat_seats, Function.update_self, Seat.cancel]
      · rw [Data.setSeat_seats, Function.update_of_ne hj]
  · intro w c a uid i code hpc
    have hf := (Reachable.local hs).facts w
    rw [hpc] at hf
    exact hf.2.2.2

theorem seat_ownership_booked :
    (after oneCore bookRun).data.activeUser 0 1 = some [97] ∧
      LoggedIn (after oneCore bookRun).data 0 [97] := by
  have hpc : (after oneCore bookRun).pc (.worker (0 : Fin 1)) =
      .handler ⟨7, bookRequest, 1, []⟩ (.lockSeat .book 0 0) := rfl
  obtain ⟨w, c, a, uid, hw, hpc', _, hactive, _, hlogged, _⟩ :=
    (seat_ownership oneCore (after oneCore bookRun) (reachable_after _ _)).1 (.worker (0 : Fin 1))
      anyOracle (after oneCore (bookRun ++ [(.worker (0 : Fin 1), anyOracle)] : List (Thread 1 × Oracle)))
      0 rfl (by decide)
  cases hw
  rw [hpc] at hpc'
  cases hpc'
  exact ⟨hactive, hlogged⟩

end SystemsLab.Reservation
