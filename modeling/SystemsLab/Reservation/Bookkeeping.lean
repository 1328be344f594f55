import SystemsLab.Reservation.Connections
import SystemsLab.Tables.Slots
import SystemsLab.Threads.Runs

namespace SystemsLab.Reservation

open CLib Threads

variable {C : Config}

def PollSet.slots (p : PollSet) : Slots ℤ (Option Bytes) := ⟨p.fd, p.activeUsers, p.size⟩

def Pc.connection : Pc → Option ℤ
  | find fd _ _ => some fd
  | found fd _ _ _ => some fd
  | handler c _ => some c.fd
  | respond c _ => some c.fd
  | remove fd _ _ => some fd
  | _ => none

lemma connection_of_current {pc : Pc} {fd : ℤ} (h : pc.current = some fd) :
    pc.connection = some fd := by
  cases pc with
  | found fd' r slot rest =>
    cases slot
    · cases h
    · exact h
  | remove fd' rest p =>
    cases p <;> first | exact h | cases h
  | find | handler | respond => exact h
  | _ => cases h

section Steps

variable {w : ℕ} {d d' : Data} {pc pc' : Pc}

lemma NetStep.distinct (h : NetStep w d d' pc pc') (hd : (d.pollSets w).slots.Distinct) :
    (d'.pollSets w).slots.Distinct := by
  cases h with
  | same hp => rwa [hp]
  | active _ _ hp | close _ hp =>
    rw [hp, pollSets_setActiveUser]
    exact hd
  | swap hs hp =>
    rw [hp, pollSets_setPollSet]
    exact hd.removeAt hs.2.1

lemma NetStep.has_iff (h : NetStep w d d' pc pc') (hd : (d.pollSets w).slots.Distinct) {fd : ℤ}
    (hne : pc.connection ≠ some fd) (u : Option Bytes) :
    (d'.pollSets w).slots.Has fd u ↔ (d.pollSets w).slots.Has fd u := by
  have hset : ∀ {i fd₀ v}, Slot d w i fd₀ → pc.connection = some fd₀ →
      (((d.pollSets w).setActiveUser i v).slots.Has fd u ↔ (d.pollSets w).slots.Has fd u) := by
    intro i fd₀ v hs hc
    refine Slots.has_set (t := (d.pollSets w).slots) fun he => hne ?_
    rw [hc, he]
    exact congrArg some hs.2.2.symm
  cases h with
  | same hp => rw [hp]
  | active hs hcur hp =>
    rw [hp, pollSets_setActiveUser]
    exact hset hs (connection_of_current hcur)
  | close hs hp =>
    rw [hp, pollSets_setActiveUser]
    exact hset hs rfl
  | swap hs hp =>
    rw [hp, pollSets_setPollSet]
    refine (Slots.has_removeAt hd hs.2.1).trans (and_iff_left fun he => hne ?_)
    rw [he]
    exact congrArg some hs.2.2.symm

end Steps

section Distinct

variable {s s' : Server C} {o : Oracle}

lemma closed_of_free (ho : (discipline C).Owns s) {w : Fin C.nCores}
    (hfree : s.owner (.pollSet w) = none) : (s.pc (.worker w)).closed = none := by
  cases hc : (s.pc (.worker w)).closed with
  | none => rfl
  | some i =>
    have hin : Mutex.pollSet w ∈ (discipline C).held (.worker w) (s.pc (.worker w)) := by
      cases hpc : s.pc (.worker w) with
      | remove fd rest p =>
        rw [hpc] at hc
        cases p <;> cases hc
        exact rfl
      | _ =>
        rw [hpc] at hc
        cases hc
    rw [(ho _ _).mpr hin] at hfree
    cases hfree

lemma main_slots (hs : Reachable C s) (h : (server C).step s .main o = .next s')
    (w : Fin C.nCores) : s'.data.pollSets w = s.data.pollSets w ∨
      ∃ fd, s.pc .main = .main (.addLock w fd) ∧
        s'.data.pollSets w = (s.data.pollSets w).add fd ∧
        ∀ i < (s.data.pollSets w).size, (s.data.pollSets w).fd i ≠ fd := by
  obtain ⟨hlock, -⟩ := Program.step_next h
  obtain ⟨p, d', p', hp, hm, rfl, -⟩ := main_step h
  cases hm with
  | accept _ hd | drop hd | pass hd =>
    rw [hd]
    exact .inl rfl
  | @give j fd hlt hd =>
    by_cases hw : (w : ℕ) = j
    · subst j
      rw [hd]
      refine .inr ⟨fd, hp, pollSets_setPollSet .., fun i hi => ?_⟩
      rw [hp] at hlock
      have hc := closed_of_free (Reachable.owns hs) (hlock (.pollSet w) rfl)
      have hhand := @Connected.hand _ _ (Reachable.connected hs) fd (by rw [hp]; rfl)
      exact hhand.2 w i ⟨hi, by rw [hc]; nofun⟩
    · rw [hd]
      exact .inl (pollSets_setPollSet_ne _ hw)

lemma Reachable.distinct (hs : Reachable C s) (w : Fin C.nCores) :
    (s.data.pollSets w).slots.Distinct := by
  refine Program.Reachable.invariant
    (fun a : Server C => ∀ w : Fin C.nCores, (a.data.pollSets w).slots.Distinct) hs ?_
    (fun a b t o hr hd he v => ?_) w
  · intro v i hi j hj _
    rw [Nat.lt_one_iff.mp hi, Nat.lt_one_iff.mp hj]
  · cases t with
    | main =>
      rcases main_slots hr he v with hv | ⟨fd, -, hv, hne⟩
      · rw [hv]
        exact hd v
      · rw [hv]
        exact (hd v).push hne
    | worker u =>
      obtain ⟨d', pc', hc, rfl, -⟩ := worker_step he
      have hnet := (workerCode_step hc).net ((Reachable.local hr).facts u)
      by_cases hv : v = u
      · subst v
        exact hnet.distinct (hd u)
      · rw [hnet.pollSets_ne fun hvu => hv (Fin.ext hvu)]
        exact hd v

end Distinct

section Lookup

variable {s : Server C}

lemma findFd_of_has {p : PollSet} {i : ℕ} (hi : i < p.size) : ∃ j, p.findFd (p.fd i) = some j := by
  rw [← Option.isSome_iff_exists, PollSet.findFd, List.find?_isSome]
  exact ⟨i, List.mem_range.mpr hi, beq_self_eq_true _⟩

lemma Reachable.found (hs : Reachable C s) (w : Fin C.nCores) {fd : ℤ} {r : Request}
    {slot : Option ℕ} {rest : List (ℤ × Bool)} (hpc : s.pc (.worker w) = .found fd r slot rest) :
    ∃ i, slot = some i := by
  refine Program.Reachable.invariant (fun a : Server C => ∀ (v : Fin C.nCores) (fd : ℤ)
    (r : Request) (slot : Option ℕ) (rest : List (ℤ × Bool)),
    a.pc (.worker v) = .found fd r slot rest → ∃ i, slot = some i) hs (fun _ _ _ _ _ h => by cases h)
    (fun a b t o hr hf he v fd r slot rest hv => ?_) w fd r slot rest hpc
  by_cases ht : t = .worker v
  · subst t
    obtain ⟨d', pc', hc, -, hpc⟩ := worker_step he
    have hbusy : ∀ {fd}, (a.pc (.worker v)).current = some fd →
        ∃ i, Live a v i ∧ fdAt a v i = fd := (Reachable.connected hr).busy
    rw [hpc, Function.update_self] at hv
    subst hv
    have hstep := workerCode_step hc
    generalize a.pc (.worker v) = pc, hp : Pc.found fd r slot rest = pc' at hstep hbusy
    cases hstep with
    | find =>
      cases hp
      obtain ⟨i, hi, rfl⟩ := hbusy rfl
      exact findFd_of_has hi.1
    | handler h => rcases h.call with ⟨p', rfl⟩ | ⟨response, rfl⟩ <;> cases hp
    | remove h => cases h <;> cases hp
    | enter fd' r' i rest' =>
      have he := handleRequest_entered ⟨fd', r', i, rest'⟩ (a.data.activeUser v i)
      rw [← hp] at he
      cases he
    | _ => cases hp
  · rw [(frame (Reachable.owns hr) he ht).2] at hv
    exact hf v fd r slot rest hv

end Lookup

section Requests

def Pc.request : Pc → Option (ℤ × Request)
  | find fd r _ => some (fd, r)
  | found fd r _ _ => some (fd, r)
  | handler c _ => some (c.fd, c.request)
  | respond c _ => some (c.fd, c.request)
  | _ => none

-- `receive_request` has returned true.
def Pc.receives (C : Config) (w : ℕ) (o : Oracle) : Pc → Option (ℤ × Request)
  | serve ((fd, failed) :: _) =>
    if fd = C.pipeOut w ∨ failed = true then none else o.request.map fun r => (fd, r)
  | _ => none

-- `send_response` is called.
def Pc.answers : Pc → Option (ℤ × Request)
  | respond c _ => some (c.fd, c.request)
  | _ => none

def received (w : Fin C.nCores) (s : Server C) (t : Thread C.nCores) (o : Oracle)
    (_ : Server C) : List (ℤ × Request) :=
  if t = .worker w then ((s.pc t).receives C w o).toList else []

def answered (w : Fin C.nCores) (s : Server C) (t : Thread C.nCores) (_ : Oracle)
    (_ : Server C) : List (ℤ × Request) :=
  if t = .worker w then (s.pc t).answers.toList else []

def Point.left : Point → ℕ
  | lockArray _ => 2 * numSeats + 7
  | lockUser _ _ => 2 * numSeats + 6
  | unlockArray _ _ => 2 * numSeats + 5
  | scanLock _ _ i _ => 2 * (numSeats - i) + 4
  | scanUnlock _ _ i _ => 2 * (numSeats - i) + 3
  | newLockUser _ => 5
  | newUnlockUser _ => 4
  | lockSeat _ _ _ => 4
  | unlockSeat _ _ _ _ => 3
  | loginUnlockUser _ => 3
  | newUnlockArray _ => 3
  | logoutUnlockUser _ => 3
  | queryLock _ => 3
  | _ => 2

def Pc.left : Pc → ℕ
  | find _ _ _ => 2 * numSeats + 9
  | found _ _ _ _ => 2 * numSeats + 8
  | handler _ p => p.left
  | respond _ _ => 1
  | _ => 0

lemma left_of_request {pc : Pc} {x : ℤ × Request} (h : pc.request = some x) :
    0 < pc.left ∧ pc.left ≤ 2 * numSeats + 9 := by
  cases pc with
  | find | found | respond => simp only [Pc.left]; omega
  | handler c p =>
    cases p <;> simp only [Pc.left, Point.left] <;> omega
  | _ => cases h

variable {w : ℕ} {d d' : Data}

lemma HandlerStep.left {c : Call} {salt : Bytes} {p : Point} {pc : Pc}
    (h : HandlerStep C w c salt d p d' pc) :
    pc.request = some (c.fd, c.request) ∧ pc.left < p.left := by
  cases h <;> exact ⟨rfl, by simp only [Pc.left, Point.left]; omega⟩

lemma Entered.left {c : Call} {active : Option Bytes} {pc : Pc} (h : Entered c active pc) :
    pc.request = some (c.fd, c.request) ∧ pc.left < 2 * numSeats + 8 := by
  cases h <;> exact ⟨rfl, by simp only [Pc.left, Point.left]; omega⟩

lemma WorkerStep.request {o : Oracle} {pc pc' : Pc} (h : WorkerStep C w o d pc d' pc')
    (hf : ∀ fd r rest, pc ≠ .found fd r none rest) :
    pc.request = none ∧ pc.answers = none ∧ pc'.request = pc.receives C w o ∨
      ∃ x, pc.request = some x ∧ pc.receives C w o = none ∧
        (pc.answers = some x ∧ pc'.request = none ∨
          pc.answers = none ∧ pc'.request = some x ∧ pc'.left < pc.left) := by
  cases h with
  | handler h => exact .inr ⟨_, rfl, rfl, .inr ⟨rfl, h.left⟩⟩
  | find => exact .inr ⟨_, rfl, rfl, .inr ⟨rfl, rfl, by simp only [Pc.left]; omega⟩⟩
  | missing fd r rest => exact absurd rfl (hf fd r rest)
  | enter fd r i rest =>
    refine .inr ⟨(fd, r), rfl, rfl, .inr ⟨rfl, ?_⟩⟩
    exact (handleRequest_entered ⟨fd, r, i, rest⟩ (d.activeUser w i)).left
  | sent | unsent => exact .inr ⟨_, rfl, rfl, .inl ⟨rfl, rfl⟩⟩
  | pipe hfd =>
    refine .inl ⟨rfl, rfl, ?_⟩
    simp only [Pc.request, Pc.receives, hfd, true_or, if_true]
  | hangUp hfd hfail =>
    refine .inl ⟨rfl, rfl, ?_⟩
    rcases hfail with hfail | hfail <;> simp [Pc.request, Pc.receives, hfail]
  | receive hfd hr =>
    refine .inl ⟨rfl, rfl, ?_⟩
    simp [Pc.request, Pc.receives, hfd, hr]
  | remove h => cases h <;> exact .inl ⟨rfl, rfl, rfl⟩
  | _ => exact .inl ⟨rfl, rfl, rfl⟩

variable {s s' : Server C} {w : Fin C.nCores} {t : Thread C.nCores} {o : Oracle}

lemma request_step (hs : Reachable C s) (h : (server C).step s t o = .next s') :
    (s.pc (.worker w)).request.toList ++ received w s t o s' =
      answered w s t o s' ++ (s'.pc (.worker w)).request.toList := by
  by_cases ht : t = .worker w
  · subst t
    obtain ⟨d', pc', hc, -, hpc⟩ := worker_step h
    have hf : ∀ fd r rest, s.pc (.worker w) ≠ .found fd r none rest := by
      intro fd r rest hpc
      obtain ⟨i, hi⟩ := hs.found w hpc
      cases hi
    rw [received, answered, if_pos rfl, if_pos rfl, hpc, Function.update_self]
    rcases (workerCode_step hc).request hf with ⟨hr, ha, hr'⟩ | ⟨x, hr, hn, ⟨ha, hr'⟩ | ⟨ha, hr', -⟩⟩
    · rw [hr, ha, hr']
    · rw [hr, hn, ha, hr']
    · rw [hr, hn, ha, hr']
      rfl
  · rw [received, answered, if_neg ht, if_neg ht, (frame (Reachable.owns hs) h ht).2,
      List.append_nil, List.nil_append]

lemma answered_of_turns {x : ℤ × Request} {l : List (Thread C.nCores × Oracle)}
    (hs : Reachable C s) (hx : (s.pc (.worker w)).request = some x)
    (hrun : (server C).run s l = some s') :
    x ∈ (server C).trace (answered w) s l ∨ (s'.pc (.worker w)).request = some x ∧
      (s'.pc (.worker w)).left + Program.turns (.worker w) l ≤ (s.pc (.worker w)).left := by
  refine Program.mem_trace_of_turns
    (B := fun a : Server C => (a.pc (.worker w)).request = some x)
    (m := fun a : Server C => (a.pc (.worker w)).left)
    (fun a u o b hr hu he hb => ?_) (fun a o b hr he hb => ?_) hs hx hrun
  · rw [(frame (Reachable.owns hr) he hu).2]
    exact ⟨hb, rfl⟩
  · obtain ⟨d', pc', hc, -, hpc⟩ := worker_step he
    have hf : ∀ fd r rest, a.pc (.worker w) ≠ .found fd r none rest := by
      intro fd r rest hpc
      obtain ⟨i, hi⟩ := Reachable.found hr w hpc
      cases hi
    rw [answered, if_pos rfl, hpc, Function.update_self]
    rcases (workerCode_step hc).request hf with ⟨hr, -⟩ | ⟨y, hr, -, ⟨ha, -⟩ | ⟨-, hr', hlt⟩⟩
    · rw [hr] at hb
      cases hb
    · rw [hr] at hb
      cases hb
      rw [ha]
      exact .inl (List.mem_singleton_self x)
    · rw [hr] at hb
      cases hb
      exact .inr ⟨hr', hlt⟩

end Requests

lemma has_step {s s' : Server C} {t : Thread C.nCores} {o : Oracle} (hs : Reachable C s)
    (h : (server C).step s t o = .next s') (w : Fin C.nCores) (fd : ℤ) (u : Option Bytes) :
    ((s'.data.pollSets w).slots.Has fd u ↔ (s.data.pollSets w).slots.Has fd u) ∨
      t = .worker w ∧ (s.pc t).connection = some fd ∨
      t = .main ∧ s.pc .main = .main (.addLock w fd) ∧
        ((s'.data.pollSets w).slots.Has fd u → u = none) ∧
        ∀ v, ¬ (s.data.pollSets w).slots.Has fd v := by
  cases t with
  | main =>
    rcases main_slots hs h w with he | ⟨fd', hp, he, hne⟩
    · rw [he]
      exact .inl Iff.rfl
    · have hadd : (s'.data.pollSets w).slots = (s.data.pollSets w).slots.push fd' none := by
        rw [he]
        rfl
      rw [hadd, Slots.has_push]
      by_cases hfd : fd' = fd
      · subst fd'
        have hnew : ∀ v, ¬ (s.data.pollSets w).slots.Has fd v := by
          rintro v ⟨i, hi, hk, -⟩
          exact hne i hi hk
        refine .inr (.inr ⟨rfl, hp, ?_, hnew⟩)
        rintro (hu | ⟨-, hu⟩)
        · exact absurd hu (hnew u)
        · exact hu.symm
      · exact .inl (or_iff_left fun hk => hfd hk.1)
  | worker v =>
    obtain ⟨d', pc', hc, rfl, -⟩ := worker_step h
    have hnet := (workerCode_step hc).net ((Reachable.local hs).facts v)
    by_cases hw : w = v
    · subst w
      by_cases hfd : (s.pc (.worker v)).connection = some fd
      · exact .inr (.inl ⟨rfl, hfd⟩)
      · exact .inl (hnet.has_iff (hs.distinct v) hfd u)
    · rw [hnet.pollSets_ne fun he => hw (Fin.ext he)]
      exact .inl Iff.rfl

lemma Reachable.inserts {s s' : Server C} {o : Oracle} {j : ℕ} {fd : ℤ} (hs : Reachable C s)
    (hp : s.pc .main = .main (.addLock j fd)) (h : (server C).step s .main o = .next s') :
    s'.pc .main = .main (.addUnlock j fd) ∧ (s'.data.pollSets j).slots.Has fd none := by
  obtain ⟨q, hq, hfacts⟩ := Reachable.mainFacts hs
  rw [hp] at hq
  cases hq
  have hlt : (s.data.pollSets j).size < clientsPerThread := hfacts.2
  obtain ⟨-, d', pc', hc, rfl⟩ := Program.step_next h
  simp only [server, hp, mainCode, ge_iff_le, not_le.mpr hlt, if_false] at hc
  cases hc
  have hadd : ((s.data.pollSets j).add fd).slots = (s.data.pollSets j).slots.push fd none := rfl
  refine ⟨by simp, ?_⟩
  rw [pollSets_setPollSet, hadd]
  exact Slots.has_push.mpr (.inr ⟨rfl, rfl⟩)

structure PollSet.Ok (C : Config) (w : ℕ) (p : PollSet) : Prop where
  pipe : p.fd 0 = C.pipeOut w
  pos : 1 ≤ p.size
  bound : p.size ≤ clientsPerThread
  distinct : ∀ i < p.size, ∀ j < p.size, p.fd i = p.fd j → i = j
  idle : ∀ i, p.size ≤ i → p.activeUsers i = none

theorem pollset_bookkeeping (C : Config) (s : Server C) (hs : Reachable C s)
    (w : Fin C.nCores) :
    (s.data.pollSets w).Ok C w ∧
    (∀ t o s' fd u, (server C).step s t o = .next s' → (s.data.pollSets w).slots.Has fd u →
      (s'.data.pollSets w).slots.Has fd u ∨
        t = .worker w ∧ (s.pc t).connection = some fd) ∧
    (∀ t o s' fd u, (server C).step s t o = .next s' → (s'.data.pollSets w).slots.Has fd u →
      (s.data.pollSets w).slots.Has fd u ∨ t = .worker w ∧ (s.pc t).connection = some fd ∨
        t = .main ∧ s.pc .main = .main (.addLock w fd) ∧ u = none ∧
          ∀ v, ¬ (s.data.pollSets w).slots.Has fd v) ∧
    (∀ o s' fd, s.pc .main = .main (.addLock w fd) → (server C).step s .main o = .next s' →
      s'.pc .main = .main (.addUnlock w fd) ∧ (s'.data.pollSets w).slots.Has fd none) ∧
    (∀ fd r slot rest, s.pc (.worker w) = .found fd r slot rest →
      ∃ i, slot = some i ∧ Slot s.data w i fd) ∧
    (∀ c p, s.pc (.worker w) = .handler c p → Slot s.data w c.slot c.fd) ∧
    (∀ l s', (server C).run s l = some s' →
      (s.pc (.worker w)).request.toList ++ (server C).trace (received w) s l =
          (server C).trace (answered w) s l ++ (s'.pc (.worker w)).request.toList ∧
        ∀ x, (s.pc (.worker w)).request = some x →
          2 * numSeats + 9 ≤ Program.turns (.worker w) l →
          x ∈ (server C).trace (answered w) s l) := by
  have hl := Reachable.local hs
  have hok := hl.poll w
  have hd := hs.distinct w
  refine ⟨⟨hok.pipe, hok.pos, hok.bound, hd, hok.idle⟩, fun t o s' fd u he hu => ?_,
    fun t o s' fd u he hu => ?_, fun o s' fd hp he => hs.inserts hp he,
    fun fd r slot rest hpc => ?_, fun c p hpc => ?_,
    fun l s' hrun => ⟨?_, fun x hx hturns => ?_⟩⟩
  · rcases has_step hs he w fd u with hiff | hown | ⟨hm, hp, _, hnew⟩
    · exact .inl (hiff.mpr hu)
    · exact .inr hown
    · exact absurd hu (hnew u)
  · rcases has_step hs he w fd u with hiff | hown | ⟨hm, hp, hiff, hnew⟩
    · exact .inl (hiff.mp hu)
    · exact .inr (.inl hown)
    · exact .inr (.inr ⟨hm, hp, hiff hu, hnew⟩)
  · obtain ⟨i, rfl⟩ := hs.found w hpc
    have hf := hl.facts w
    rw [hpc] at hf
    exact ⟨i, rfl, hf.2 i rfl⟩
  · have hf := hl.facts w
    rw [hpc] at hf
    exact hf.2.1
  · have hstep : ∀ a t o b, Reachable C a → (server C).step a t o = .next b →
        (a.pc (.worker w)).request.toList ++ received w a t o b =
          answered w a t o b ++ (b.pc (.worker w)).request.toList :=
      fun a t o b hr he => request_step hr he
    exact Program.trace_balance hstep hs hrun
  · rcases answered_of_turns hs hx hrun with hin | ⟨hx', hle⟩
    · exact hin
    · have hpos := (left_of_request hx').1
      have hbound := (left_of_request hx).2
      omega

theorem pollset_bookkeeping_login :
    ((after oneCore []).data.pollSets 0).Ok oneCore 0 ∧
      (server oneCore).trace (received (0 : Fin 1)) (after oneCore []) loginRun =
        (server oneCore).trace (answered (0 : Fin 1)) (after oneCore []) loginRun := by
  have hs := pollset_bookkeeping oneCore (after oneCore []) (reachable_after _ _) (0 : Fin 1)
  obtain ⟨hok, -, -, -, -, -, hrun⟩ := hs
  have hl := (hrun loginRun (after oneCore loginRun) rfl).1
  refine ⟨hok, ?_⟩
  rwa [show ((after oneCore []).pc (.worker (0 : Fin 1))).request = none from rfl,
    show ((after oneCore loginRun).pc (.worker (0 : Fin 1))).request = none from rfl,
    Option.toList_none, List.nil_append, List.append_nil] at hl

example : (server oneCore).trace (answered (0 : Fin 1)) (after oneCore []) loginRun =
    [(7, loginRequest)] := by decide +kernel

end SystemsLab.Reservation
