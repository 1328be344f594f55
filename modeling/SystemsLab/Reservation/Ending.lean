import SystemsLab.Reservation.Deadlock
import SystemsLab.Reservation.Shutdown

namespace SystemsLab.Reservation

open CLib Threads Function Relation

def requestRank : ℕ := 20 + 2 * numSeats

def Point.rank : Point → ℕ
  | lockArray _ => 17 + 2 * numSeats
  | unlockArrayUnknown _ => 12
  | lockUser _ _ => 16 + 2 * numSeats
  | unlockArray _ _ => 15 + 2 * numSeats
  | unlockUser _ _ => 12
  | loginUnlockUser _ => 13
  | newLockUser _ => 15
  | newUnlockUser _ => 14
  | newUnlockArray _ => 13
  | saveActiveUser => 12
  | logoutUnlockUser _ => 13
  | clearActiveUser => 12
  | lockSeat _ _ _ => 14
  | unlockSeat _ _ _ _ => 13
  | scanLock _ _ i _ => 14 + 2 * (numSeats - i)
  | scanUnlock _ _ i _ => 13 + 2 * (numSeats - i)
  | queryLock _ => 13
  | queryUnlock _ _ => 12

def RemovePoint.rank : RemovePoint → ℕ
  | lockPollSet => 8
  | lockArray _ _ => 7
  | unlockArrayUnknown _ => 4
  | lockUser _ _ => 6
  | unlockArray _ _ => 5
  | unlockUser _ _ => 4
  | close _ => 3
  | swap _ => 2
  | unlockPollSet => 1

def Pc.rank : Pc → ℕ
  | top => 1
  | snapped locals => 4 + requestRank * locals.length
  | polling locals => 3 + requestRank * locals.length
  | serve ready => 2 + requestRank * ready.length
  | find _ _ rest => 2 + requestRank * rest.length + (19 + 2 * numSeats)
  | found _ _ _ rest => 2 + requestRank * rest.length + (18 + 2 * numSeats)
  | handler c p => 2 + requestRank * c.rest.length + p.rank
  | respond c _ => 2 + requestRank * c.rest.length + 11
  | remove _ rest p => 2 + requestRank * rest.length + p.rank
  | main _ => 0

section Turns

variable {C : Config} {w : ℕ} {o : Oracle} {d d' : Data} {pc pc' : Pc} {c : Call}

lemma HandlerStep.rank_lt {salt : Bytes} {p : Point} (h : HandlerStep C w c salt d p d' pc) :
    pc.rank < (Pc.handler c p).rank := by
  cases h with
  | _ =>
    simp only [Pc.rank, Point.rank]
    omega

lemma RemoveStep.rank_lt {fd : ℤ} {rest : List (ℤ × Bool)} {p : RemovePoint}
    (h : RemoveStep w fd rest d p d' pc) : pc.rank < (Pc.remove fd rest p).rank := by
  cases h with
  | _ =>
    simp only [Pc.rank, RemovePoint.rank]
    omega

lemma Entered.rank_lt {active : Option Bytes} {fd : ℤ} {r : Request} {slot : Option ℕ}
    (h : Entered c active pc) : pc.rank < (Pc.found fd r slot c.rest).rank := by
  cases h with
  | respond | lockArray | query =>
    simp only [Pc.rank, Point.rank]
    omega

lemma WorkerStep.rank_lt (h : WorkerStep C w o d pc d' pc') (htop : pc ≠ .top) :
    pc'.rank < pc.rank := by
  cases h with
  | top => exact absurd rfl htop
  | handler h => exact h.rank_lt
  | remove h => exact h.rank_lt
  | enter fd r slot rest =>
    exact (handleRequest_entered ⟨fd, r, slot, rest⟩ (d.activeUser w slot)).rank_lt
  | poll hr =>
    have hle := hr.length_le
    rw [List.length_map] at hle
    have hmul := Nat.mul_le_mul_left requestRank hle
    simp only [Pc.rank]
    omega
  | pipe | hangUp | receive =>
    simp only [Pc.rank, RemovePoint.rank, List.length_cons, requestRank, Nat.mul_succ]
    omega
  | _ =>
    simp only [Pc.rank, RemovePoint.rank, List.length_nil]
    omega

end Turns

section Points

variable {C : Config} {s : Server C} {w : Fin C.nCores} {o : Oracle} {d d' : Data} {pc pc' : Pc}

def Pc.locals : Pc → Option (List ℤ)
  | snapped locals => some locals
  | polling locals => some locals
  | _ => none

structure Pc.Polls (C : Config) (w : ℕ) (pc : Pc) : Prop where
  pipe : ∀ locals, pc.locals = some locals → C.pipeOut w ∈ locals
  pending : pc.pending.length ≤ clientsPerThread
  worker : ∀ p, pc ≠ .main p

lemma Entered.polls {c : Call} {active : Option Bytes} (h : Entered c active pc) :
    pc.locals = none ∧ ∀ p, pc ≠ .main p := by
  cases h with
  | respond | lockArray | query => exact ⟨rfl, by rintro _ ⟨⟩⟩

lemma WorkerStep.polls {w : ℕ} (h : WorkerStep C w o d pc d' pc') (hok : PollOk C d w)
    (hp : pc.Polls C w) : pc'.Polls C w := by
  have hlocals : (∀ p, pc' ≠ .main p) ∧ ∀ l, pc'.locals = some l →
      l = (d.pollSets w).fds ∨ pc.locals = some l := by
    cases h with
    | top => exact ⟨by rintro _ ⟨⟩, fun l hl => .inl (Option.some.inj hl).symm⟩
    | snapped locals => exact ⟨by rintro _ ⟨⟩, fun l hl => .inr hl⟩
    | enter fd r slot rest =>
      obtain ⟨hnone, hmain⟩ :=
        (handleRequest_entered ⟨fd, r, slot, rest⟩ (d.activeUser w slot)).polls
      exact ⟨hmain, fun l hl => by rw [hnone] at hl; cases hl⟩
    | handler h =>
      rcases h.call with ⟨p', rfl⟩ | ⟨response, rfl⟩ <;> exact ⟨by rintro _ ⟨⟩, by rintro _ ⟨⟩⟩
    | remove h =>
      cases h with
      | _ => exact ⟨by rintro _ ⟨⟩, by rintro _ ⟨⟩⟩
    | _ => exact ⟨by rintro _ ⟨⟩, by rintro _ ⟨⟩⟩
  have hlength : ((d.pollSets w).fds).length ≤ clientsPerThread := by
    rw [PollSet.fds, List.length_map, List.length_range]
    exact hok.bound
  refine ⟨fun l hl => ?_, ?_, hlocals.1⟩
  · rcases hlocals.2 l hl with rfl | hold
    · rw [PollSet.fds, ← hok.pipe]
      exact List.mem_map_of_mem (List.mem_range.mpr hok.pos)
    · exact hp.pipe l hold
  · have hpending := hp.pending
    cases h.queue with
    | snapshot =>
      rw [Pc.pending, List.length_map]
      exact hlength
    | take hrest =>
      rw [hrest]
      exact (Nat.le_succ _).trans hpending
    | poll hr =>
      have hle := hr.length_le
      rw [List.length_map] at hle
      rw [Pc.pending, List.length_map] at hpending
      exact hle.trans hpending
    | keep hkeep =>
      rw [hkeep]
      exact hpending

lemma Reachable.polls (hs : Reachable C s) (w : Fin C.nCores) : (s.pc (.worker w)).Polls C w := by
  refine Program.Reachable.invariant (fun a : Server C => ∀ w : Fin C.nCores,
    (a.pc (.worker w)).Polls C w) hs (fun w => ⟨by rintro _ ⟨⟩, Nat.zero_le _, by rintro _ ⟨⟩⟩)
    (fun a b t o hr hp he => ?_) w
  intro v
  cases t with
  | main =>
    rw [main_pc he v]
    exact hp v
  | worker u =>
    by_cases hv : v = u
    · subst hv
      obtain ⟨d', pc', hcode, rfl, hpc⟩ := worker_step he
      rw [hpc, update_self]
      exact (workerCode_step hcode).polls ((Reachable.local hr).poll v) (hp v)
    · rw [Program.step_pc_ne he (by simpa using hv)]
      exact hp v

def turnRank : ℕ := 5 + requestRank * (clientsPerThread + 1)

lemma Point.rank_le (p : Point) : p.rank ≤ 17 + 2 * numSeats := by
  cases p with
  | _ =>
    simp only [Point.rank]
    omega

lemma Pc.Polls.rank_lt {w : ℕ} (hp : pc.Polls C w) : pc.rank < turnRank := by
  have hmul := Nat.mul_le_mul_left requestRank hp.pending
  rw [turnRank, Nat.mul_succ]
  cases pc with
  | handler c p =>
    have hpoint := p.rank_le
    simp only [Pc.pending] at hmul
    simp only [Pc.rank, requestRank] at *
    omega
  | remove fd rest p =>
    cases p with
    | _ =>
      simp only [Pc.pending] at hmul
      simp only [Pc.rank, RemovePoint.rank, requestRank] at *
      omega
  | _ =>
    simp only [Pc.pending, List.length_map] at hmul
    simp only [Pc.rank, requestRank] at *
    omega

end Points

def setRank : ℕ := clientsPerThread + 5

def Cleanup.rank (n : ℕ) : Cleanup → ℕ
  | looping => 0
  | notify i => (n - (i + 1)) * setRank + (setRank + 2)
  | closeWrite i => (n - (i + 1)) * setRank + (setRank + 1)
  | join i => (n - (i + 1)) * setRank + setRank
  | closeRead i => (n - (i + 1)) * setRank + (setRank - 1)
  | closeSlot i j => (n - (i + 1)) * setRank + (setRank - 2 - j)
  | freeShared => 1
  | returned => 0

lemma rank_cleanupFrom_le (n i : ℕ) :
    (cleanupFrom n i).rank n ≤ (n - i) * setRank + 2 := by
  rw [cleanupFrom]
  split_ifs with h
  · have hn : n - i = n - (i + 1) + 1 := by omega
    rw [Cleanup.rank, hn, Nat.succ_mul]
    omega
  · rw [Cleanup.rank]
    omega

def Pc.rankPast (passed : Bool) : Pc → ℕ
  | top => if passed then turnRank else 1
  | pc => pc.rank

lemma rankPast_of_ne {pc : Pc} {passed : Bool} (h : pc ≠ .top) : pc.rankPast passed = pc.rank := by
  cases pc with
  | top => exact absurd rfl h
  | _ => rfl

lemma rankPast_false (pc : Pc) : pc.rankPast false = pc.rank := by
  cases pc <;> rfl

lemma rankPast_le {C : Config} {w : ℕ} {pc : Pc} (hp : pc.Polls C w) (passed : Bool) :
    pc.rankPast passed ≤ turnRank := by
  cases passed with
  | false =>
    rw [rankPast_false]
    exact hp.rank_lt.le
  | true =>
    by_cases htop : pc = .top
    · rw [htop]
      exact le_rfl
    · rw [rankPast_of_ne htop]
      exact hp.rank_lt.le

/-- Where a worker waits for its client: for the rest of a request in `receive_request`, and until the
response is taken in `send_response`. -/
def Pc.OnClient (C : Config) (w : ℕ) : Pc → Prop
  | serve ((fd, failed) :: _) => fd ≠ C.pipeOut w ∧ failed = false
  | respond _ _ => True
  | _ => False

namespace Process

variable {C : Config} {s s' : Process C} {w v : Fin C.nCores} {o : Oracle}

def workerRank (s : Process C) (w : Fin C.nCores) : ℕ :=
  if s.ended w then 0 else (s.threads.pc (.worker w)).rankPast (s.passed (.worker w))

def rank (s : Process C) : ℕ := s.cleanup.rank C.nCores + ∑ w, s.workerRank w

lemma work_rank {threads : Server C} {passed : Thread C.nCores → Bool} {bytes : ℕ → ℕ} (hs : s.Sound)
    (hended : s.ended w = false) (hstep : (server C).step s.threads (.worker w) o = .next threads)
    (htop : s.threads.pc (.worker w) = .top → s.passed (.worker w) = true)
    (hpassed : passed (.worker w) = true →
      s.passed (.worker w) = true ∧ s.threads.pc (.worker w) ≠ .top)
    (hothers : ∀ v, v ≠ w → passed (.worker v) = s.passed (.worker v)) :
    ∑ v, workerRank { s with threads, passed, bytes } v < ∑ v, s.workerRank v := by
  have hp := Reachable.polls hs.reachable w
  have hp' := Reachable.polls (hs.reachable.step hstep) w
  have hunpassed : passed (.worker w) = false := by
    cases hpass : passed (.worker w) with
    | false => rfl
    | true =>
      obtain ⟨hold, hne⟩ := hpassed hpass
      exact absurd (hs.atTop w hold) hne
  apply sum_rank_lt (t := w)
  · simp only [workerRank, hended, hunpassed, rankPast_false]
    obtain ⟨d', pc', hcode, -, hpc⟩ := worker_step hstep
    rw [hpc, update_self] at hp' ⊢
    by_cases h : s.threads.pc (.worker w) = .top
    · rw [htop h, h]
      exact hp'.rank_lt
    · rw [rankPast_of_ne h]
      exact (workerCode_step hcode).rank_lt h
  · intro u hu
    simp only [workerRank, hothers u hu]
    rw [Program.step_pc_ne hstep (by simpa using hu)]

lemma leave_rank (hended : s.ended w = false) (hrest : (s.threads.pc (.worker w)).Resting) :
    ∑ v, (s.leave w).workerRank v < ∑ v, s.workerRank v := by
  apply sum_rank_lt (t := w)
  · simp only [workerRank, leave, update_self, hended]
    cases hpc : s.threads.pc (.worker w) with
    | top =>
      cases s.passed (.worker w) with
      | false => exact Nat.one_pos
      | true => exact Nat.succ_pos _
    | serve ready =>
      simp only [Pc.rankPast, Pc.rank]
      exact Nat.add_pos_left Nat.two_pos _
    | _ =>
      rw [hpc] at hrest
      exact hrest.elim
  · intro u hu
    have hsame : (s.leave w).ended u = s.ended u :=
      update_of_ne (by simpa [Fin.ext_iff] using hu) _ _
    rw [workerRank, workerRank, hsame]
    rfl

lemma cleanup_rank (hs : s.Sound) (h : s.cleanupTurn s.cleanup = .next s') :
    s'.cleanup ≠ .looping ∧ s'.cleanup.rank C.nCores < s.cleanup.rank C.nCores ∧
      ∀ w, s'.workerRank w = s.workerRank w := by
  have hplaced := hs.placed
  cases hc : s.cleanup with
  | looping | returned =>
    rw [hc] at h
    cases h
  | notify i | closeWrite i =>
    rw [hc] at h
    cases h
    exact ⟨by rintro ⟨⟩, Nat.lt_succ_self _, fun _ => rfl⟩
  | join i =>
    rw [hc] at h
    simp only [cleanupTurn] at h
    split_ifs at h
    cases h
    refine ⟨by rintro ⟨⟩, ?_, fun _ => rfl⟩
    simp only [Cleanup.rank, setRank]
    omega
  | closeRead i =>
    rw [hc] at h
    cases h
    refine ⟨by rintro ⟨⟩, ?_, fun _ => rfl⟩
    simp only [release, Cleanup.rank, setRank]
    omega
  | closeSlot i j =>
    rw [hc] at h hplaced
    obtain ⟨hi, hj, hle⟩ := hplaced
    have hbound := ((Reachable.local hs.reachable).poll i).bound
    simp only [cleanupTurn] at h
    split_ifs at h with hlt
    · cases h
      refine ⟨by rintro ⟨⟩, ?_, fun _ => rfl⟩
      simp only [release, Cleanup.rank, setRank]
      omega
    · cases h
      have hnext := rank_cleanupFrom_le C.nCores (i + 1)
      refine ⟨?_, ?_, fun _ => rfl⟩
      · rw [release, cleanupFrom]
        split_ifs <;> rintro ⟨⟩
      · change (cleanupFrom C.nCores (i + 1)).rank C.nCores < _
        simp only [Cleanup.rank, setRank] at *
        omega
  | freeShared =>
    rw [hc] at h
    cases h
    exact ⟨by rintro ⟨⟩, Nat.one_pos, fun _ => rfl⟩

lemma Step.rank_lt (h : s.Step s') (hs : s.Sound) (hc : s.cleanup ≠ .looping) :
    s'.cleanup ≠ .looping ∧ s'.rank < s.rank := by
  have hsigint := (hs.stopping hc).1
  cases h with
  | sigint h | check _ _ h =>
    rw [hsigint] at h
    cases h
  | work hended hstep htop hpassed hothers =>
    exact ⟨hc, Nat.add_lt_add_left (work_rank hs hended hstep htop hpassed hothers) _⟩
  | leave hended _ hrest => exact ⟨hc, Nat.add_lt_add_left (leave_rank hended hrest) _⟩
  | loop hloop | again hloop | enter hloop => exact absurd hloop hc
  | clean hturn =>
    obtain ⟨hc', hlt, hworkers⟩ := cleanup_rank hs hturn
    refine ⟨hc', ?_⟩
    rw [rank, rank, Finset.sum_congr rfl fun w _ => hworkers w]
    exact Nat.add_lt_add_right hlt _

def shutdownBound (C : Config) : ℕ := C.nCores * (setRank + turnRank) + 2

lemma rank_le (hs : s.Sound) : s.rank ≤ shutdownBound C := by
  have hworkers : ∑ w, s.workerRank w ≤ C.nCores * turnRank := by
    have hsum := Finset.sum_le_card_nsmul Finset.univ s.workerRank turnRank fun w _ => by
      rw [workerRank]
      split_ifs
      · exact Nat.zero_le _
      · exact rankPast_le (Reachable.polls hs.reachable w) _
    simpa using hsum
  have hmain : s.cleanup.rank C.nCores ≤ C.nCores * setRank + 2 := by
    have hplaced := hs.placed
    have hmul : ∀ i, i < C.nCores → (C.nCores - (i + 1)) * setRank + setRank ≤ C.nCores * setRank := by
      intro i hi
      rw [← Nat.succ_mul]
      exact Nat.mul_le_mul_right _ (by omega)
    cases hc : s.cleanup with
    | looping | freeShared | returned =>
      simp only [Cleanup.rank]
      omega
    | notify i | closeWrite i | closeRead i =>
      rw [hc] at hplaced
      have hle := hmul i hplaced
      simp only [Cleanup.rank, setRank] at *
      omega
    | join i | closeSlot i j =>
      rw [hc] at hplaced
      have hle := hmul i hplaced.1
      simp only [Cleanup.rank, setRank] at *
      omega
  rw [rank, shutdownBound, Nat.mul_add]
  omega

section Progress

/-- The turn of a worker that waits for its client has one of the results that the client brings
about. -/
def Answered (answers : Fin C.nCores → Oracle → Prop) (s : Process C)
    (a : Actor C.nCores × Oracle) : Prop :=
  ∀ w, a.1 = .thread (.worker w) → (s.threads.pc (.worker w)).OnClient C w → answers w a.2

/-- A thread can take a turn, with clients that answer so. -/
def CanTurn (answers : Fin C.nCores → Oracle → Prop) (s : Process C) : Prop :=
  ∃ a, s.turn a ≠ .stuck ∧ s.Answered answers a

variable {answers : Fin C.nCores → Oracle → Prop}

lemma canTurn_main (h : s.turn (.thread .main, anyOracle) ≠ .stuck) : s.CanTurn answers :=
  ⟨_, h, fun w hw => by cases hw⟩

lemma canTurn_worker (h : s.workerTurn w o ≠ .stuck)
    (hanswer : (s.threads.pc (.worker w)).OnClient C w → answers w o) : s.CanTurn answers := by
  refine ⟨(.thread (.worker w), o), h, fun v hv => ?_⟩
  cases hv
  exact hanswer

lemma step_ne_stuck {t : Thread C.nCores} (h : (server C).step s.threads t o ≠ .stuck) :
    s.step t o ≠ .stuck :=
  Outcome.map_ne_stuck h

lemma turn_of_held (hs : s.Sound) {m : Mutex} (hm : m ∈ (s.threads.pc (.worker w)).held w) :
    s.turn (.thread (.worker w), o) = s.step (.worker w) o := by
  have hended : s.ended w = false := by
    cases hw : s.ended w with
    | false => rfl
    | true =>
      have hrest := hs.resting w hw
      cases hpc : s.threads.pc (.worker w) with
      | top | serve =>
        rw [hpc] at hm
        exact hm.elim
      | _ =>
        rw [hpc] at hrest
        exact hrest.elim
  rw [turn, workerTurn, hended, if_neg Bool.false_ne_true]
  cases hpc : s.threads.pc (.worker w) with
  | top | polling | serve =>
    rw [hpc] at hm
    exact hm.elim
  | _ => rfl

lemma code_ne_stuck_of_pc {pc : Pc} (hp : pc.Polls C w) (o : Oracle) (d : Data)
    (h : ∀ locals, pc ≠ .polling locals) : workerCode C w o d pc ≠ .stuck := by
  cases pc with
  | polling locals => exact absurd rfl (h locals)
  | main p => exact absurd rfl (hp.worker p)
  | serve ready =>
    rcases ready with _ | ⟨⟨fd, failed⟩, rest⟩
    · rintro ⟨⟩
    · simp only [workerCode]
      split_ifs
      · rintro ⟨⟩
      · rintro ⟨⟩
      · cases o.request <;> rintro ⟨⟩
  | found fd r slot rest => cases slot <;> rintro ⟨⟩
  | handler c p =>
    cases p <;> simp only [workerCode, Call.handlerCode] <;> repeat' split
    all_goals rintro ⟨⟩
  | respond c response =>
    simp only [workerCode]
    split_ifs <;> rintro ⟨⟩
  | _ => rintro ⟨⟩

lemma not_onClient_of_held {pc : Pc} {m : Mutex} (hm : m ∈ pc.held w) : ¬ pc.OnClient C w := by
  cases pc with
  | serve | respond => exact hm.elim
  | _ => exact id

lemma canTurn_of_blocked (hs : s.Sound) (hmain : s.threads.pc .main = .main .accepting)
    (hb : (server C).Blocked s.threads (.worker w)) : s.CanTurn answers := by
  obtain ⟨-, -, -, hchain⟩ := deadlock_freedom C s.threads hs.reachable
  obtain ⟨u, hwaits, o, ho⟩ := hchain _ hb
  obtain ⟨_, -, m, -, hm⟩ := TransGen.tail'_iff.mp hwaits
  have hin : m ∈ held u (s.threads.pc u) := ((Reachable.owns hs.reachable) m u).mp hm
  cases u with
  | main =>
    rw [hmain] at hin
    exact hin.elim
  | worker v =>
    refine canTurn_worker (o := o) ?_ fun hon => absurd hon (not_onClient_of_held hin)
    have hturn := turn_of_held (o := o) hs hin
    rw [turn] at hturn
    rw [hturn]
    exact step_ne_stuck ho

lemma canTurn_of_closed (hs : s.Sound) (hc : s.cleanup ≠ .looping) (hended : s.ended w = false)
    (hclosed : s.closed w = true)
    (hanswers : (s.threads.pc (.worker w)).OnClient C w → ∃ o, answers w o) :
    s.CanTurn answers := by
  obtain ⟨hsigint, hmain⟩ := hs.stopping hc
  have hp := Reachable.polls hs.reachable w
  by_cases hb : (server C).Blocked s.threads (.worker w)
  · exact canTurn_of_blocked hs hmain hb
  · have hcan : (∀ locals, s.threads.pc (.worker w) ≠ .polling locals) → ∀ o,
        (server C).step s.threads (.worker w) o ≠ .stuck := fun hpc o =>
      Program.step_ne_stuck_of_code hb (code_ne_stuck_of_pc (o := o) hp s.threads.data hpc)
    have hchoose : ∃ o, (s.threads.pc (.worker w)).OnClient C w → answers w o := by
      by_cases hon : (s.threads.pc (.worker w)).OnClient C w
      · obtain ⟨o, ho⟩ := hanswers hon
        exact ⟨o, fun _ => ho⟩
      · exact ⟨anyOracle, fun h => absurd h hon⟩
    obtain ⟨o, hanswer⟩ := hchoose
    cases hpc : s.threads.pc (.worker w) with
    | top =>
      have ho := hcan (by rw [hpc]; rintro _ ⟨⟩) o
      refine canTurn_worker ?_ hanswer
      simp only [workerTurn, hended, hpc, hsigint, Bool.false_eq_true, if_false, if_true]
      split_ifs
      · exact Outcome.map_ne_stuck ho
      · rintro ⟨⟩
    | polling locals =>
      -- The pipe is readable, so that `poll` returns.
      let o : Oracle := { anyOracle with ready := [(C.pipeOut w, false)] }
      have hlocals : [C.pipeOut w].isSublist locals = true := by
        rw [List.isSublist_iff_sublist, List.singleton_sublist]
        exact hp.pipe locals (by rw [hpc]; rfl)
      have hreadable : s.readable w = true := by
        rw [readable, hclosed, Bool.or_true]
      have hcond : o.ready = [] ∨ (C.pipeOut w ∈ o.ready.map Prod.fst ↔ s.readable w = true) :=
        .inr (iff_of_true (List.mem_singleton_self _) hreadable)
      refine canTurn_worker (o := o) ?_ (by rw [hpc]; exact False.elim)
      simp only [workerTurn, hended, hpc, Bool.false_eq_true, if_false, if_pos hcond]
      apply step_ne_stuck
      have hcode : workerCode C w o s.threads.data (.polling locals) =
          .next (s.threads.data, .serve o.ready) := if_pos hlocals
      simp only [Program.step, server, hpc, Pc.op, Program.advance, hcode]
      rintro ⟨⟩
    | serve ready =>
      have ho := hcan (by rw [hpc]; rintro _ ⟨⟩) o
      refine canTurn_worker ?_ hanswer
      rcases ready with _ | ⟨⟨fd, failed⟩, rest⟩
      · simp only [workerTurn, hended, hpc, Bool.false_eq_true, if_false]
        exact step_ne_stuck ho
      · simp only [workerTurn, hended, hpc, hclosed, hsigint, Bool.false_eq_true, if_false, if_true]
        split_ifs
        · exact Outcome.map_ne_stuck ho
        · rintro ⟨⟩
        · exact step_ne_stuck ho
    | _ =>
      have ho := hcan (by rw [hpc]; rintro _ ⟨⟩) o
      refine canTurn_worker ?_ hanswer
      simp only [workerTurn, hended, hpc, Bool.false_eq_true, if_false]
      exact step_ne_stuck ho

lemma canTurn_of_cleanup (hs : s.Sound) (hc : s.cleanup ≠ .looping) (hr : s.cleanup ≠ .returned)
    (hanswers : ∀ w, (s.threads.pc (.worker w)).OnClient C w → ∃ o, answers w o) :
    s.CanTurn answers := by
  have hplaced := hs.placed
  have hmain : s.turn (.thread .main, anyOracle) = s.cleanupTurn s.cleanup := by
    rw [turn]
    split
    · next hloop => exact absurd hloop hc
    · rfl
  cases h : s.cleanup with
  | looping => exact absurd h hc
  | returned => exact absurd h hr
  | join i =>
    rw [h] at hplaced
    cases hended : s.ended i with
    | true =>
      apply canTurn_main
      rw [hmain, h, cleanupTurn, if_pos hended]
      rintro ⟨⟩
    | false => exact canTurn_of_closed (w := ⟨i, hplaced.1⟩) hs hc hended hplaced.2 (hanswers _)
  | closeSlot i j =>
    apply canTurn_main
    rw [hmain, h, cleanupTurn]
    split_ifs <;> rintro ⟨⟩
  | _ =>
    apply canTurn_main
    rw [hmain, h]
    rintro ⟨⟩

end Progress

theorem shutdown_ends (s s' : Process C) (hs : s.Reached) (hc : s.cleanup ≠ .looping)
    (l : List (Actor C.nCores × Oracle)) (h : follow turn s l = some s') :
    l.length ≤ shutdownBound C ∧
      (∀ answers, s'.cleanup ≠ .returned →
        (∀ w, (s'.threads.pc (.worker w)).OnClient C w → ∃ o, answers w o) →
        s'.CanTurn answers) ∧
      (s'.cleanup = .returned → ∀ w : Fin C.nCores, s'.ended w = true) := by
  have hstep : ∀ (s : Process C) a s', s.Sound ∧ s.cleanup ≠ .looping → s.turn a = .next s' →
      (s'.Sound ∧ s'.cleanup ≠ .looping) ∧ s'.rank < s.rank := by
    intro s a s' ⟨hs, hc⟩ hturn
    obtain ⟨hc', hlt⟩ := (turn_step hturn).rank_lt hs hc
    exact ⟨⟨(turn_step hturn).sound hs, hc'⟩, hlt⟩
  obtain ⟨hs', hc'⟩ := follow_invariant (fun a b c ha hb => (hstep a b c ha hb).1) ⟨hs.sound, hc⟩ h
  refine ⟨?_, fun answers hr hanswers => canTurn_of_cleanup hs' hc' hr hanswers,
    fun hreturned w => ?_⟩
  · have hle := length_follow_le hstep ⟨hs.sound, hc⟩ h
    exact (Nat.le_add_right _ _).trans (hle.trans (rank_le hs.sound))
  · apply hs'.joined
    rw [hreturned]
    exact w.isLt

def receiving : List (Actor 1 × Oracle) :=
  let both : Oracle := { anyOracle with ready := [(3, false), (7, false)] }
  List.replicate 6 (.thread .main, anyOracle) ++
    ([anyOracle, anyOracle, anyOracle, both, anyOracle].map fun o =>
      (.thread (.worker ⟨0, Nat.one_pos⟩), o)) ++
    [(.sigint, anyOracle), (.thread .main, anyOracle)]

theorem shutdown_ends_receiving : ∃ s s' : Process oneCore,
    follow turn s (List.replicate 2 (.thread .main, anyOracle)) = some s' ∧
      s'.cleanup = .join 0 ∧ (s'.threads.pc (.worker ⟨0, Nat.one_pos⟩)).OnClient oneCore 0 ∧
        s'.CanTurn fun _ o => o.request = none := by
  have hrun : ∃ s s' : Process oneCore, follow turn (start oneCore) receiving = some s ∧
      follow turn s (List.replicate 2 (.thread .main, anyOracle)) = some s' ∧
        s.cleanup = .notify 0 ∧ s'.cleanup = .join 0 ∧
          s'.threads.pc (.worker ⟨0, Nat.one_pos⟩) = .serve [(7, false)] :=
    ⟨_, _, rfl, rfl, rfl, rfl, rfl⟩
  obtain ⟨s, s', hs, hs', hnotify, hjoin, hpc⟩ := hrun
  obtain ⟨-, hnext, -⟩ := shutdown_ends s s' ⟨receiving, hs⟩ (by rw [hnotify]; rintro ⟨⟩) _ hs'
  refine ⟨s, s', hs', hjoin, ?_, hnext _ (by rw [hjoin]; rintro ⟨⟩) fun _ _ => ⟨anyOracle, rfl⟩⟩
  rw [hpc]
  exact ⟨by decide, rfl⟩

end Process

end SystemsLab.Reservation
