import SystemsLab.Reservation.Invariants

namespace SystemsLab.Reservation

open CLib Threads

def Pc.closed : Pc → Option ℕ
  | remove _ _ (.swap i) => some i
  | _ => none

def Pc.current : Pc → Option ℤ
  | find fd _ _ => some fd
  | found fd _ (some _) _ => some fd
  | handler c _ => some c.fd
  | respond c _ => some c.fd
  | remove _ _ (.swap _) => none
  | remove _ _ .unlockPollSet => none
  | remove fd _ _ => some fd
  | _ => none

inductive NetStep (w : ℕ) (d d' : Data) : Pc → Pc → Prop
  | same {pc pc' : Pc} (hp : d'.pollSets = d.pollSets) (ho : d'.opened = d.opened)
      (hc : pc.closed = none) (hc' : pc'.closed = none) : NetStep w d d' pc pc'
  | active {pc pc' : Pc} {i : ℕ} {fd : ℤ} {u : Option Bytes} (hs : Slot d w i fd)
      (hcur : pc.current = some fd)
      (hp : d'.pollSets = (d.setActiveUser w i u).pollSets) (ho : d'.opened = d.opened)
      (hc : pc.closed = none) (hc' : pc'.closed = none) : NetStep w d d' pc pc'
  | close {fd : ℤ} {rest : List (ℤ × Bool)} {i : ℕ} (hs : Slot d w i fd)
      (hp : d'.pollSets = (d.setActiveUser w i none).pollSets)
      (ho : d'.opened = Function.update d.opened fd false) :
      NetStep w d d' (.remove fd rest (.close i)) (.remove fd rest (.swap i))
  | swap {fd : ℤ} {rest : List (ℤ × Bool)} {i : ℕ} (hs : Slot d w i fd)
      (hp : d'.pollSets = (d.setPollSet w ((d.pollSets w).swap i)).pollSets)
      (ho : d'.opened = d.opened) :
      NetStep w d d' (.remove fd rest (.swap i)) (.remove fd rest .unlockPollSet)

lemma pollSets_setPollSet (d : Data) (w : ℕ) (p : PollSet) : (d.setPollSet w p).pollSets w = p :=
  Function.update_self ..

lemma pollSets_setPollSet_ne {d : Data} {v w : ℕ} (p : PollSet) (h : v ≠ w) :
    (d.setPollSet w p).pollSets v = d.pollSets v :=
  Function.update_of_ne h _ _

lemma pollSets_setActiveUser (d : Data) (w i : ℕ) (u : Option Bytes) :
    (d.setActiveUser w i u).pollSets w = (d.pollSets w).setActiveUser i u :=
  Function.update_self ..

lemma NetStep.pollSets_ne {w v : ℕ} {d d' : Data} {pc pc' : Pc} (h : NetStep w d d' pc pc')
    (hv : v ≠ w) : d'.pollSets v = d.pollSets v := by
  cases h with
  | same hp => rw [hp]
  | active _ _ hp | close _ hp | swap _ hp =>
    rw [hp]
    exact pollSets_setPollSet_ne _ hv

lemma Entered.closed {c : Call} {active : Option Bytes} {pc : Pc} (h : Entered c active pc) :
    pc.closed = none := by
  cases h <;> rfl

lemma HandlerStep.net {C : Config} {w : ℕ} {c : Call} {salt : Bytes} {d d' : Data} {p : Point}
    {pc : Pc} (h : HandlerStep C w c salt d p d' pc) (hs : Slot d w c.slot c.fd) :
    NetStep w d d' (.handler c p) pc := by
  cases h with
  | saveActiveUser | clearActiveUser => exact .active hs rfl rfl rfl rfl rfl
  | _ => exact .same rfl rfl rfl rfl

lemma RemoveStep.net {w : ℕ} {fd : ℤ} {rest : List (ℤ × Bool)} {d d' : Data} {p : RemovePoint}
    {pc : Pc} (h : RemoveStep w fd rest d p d' pc) (hp : p.Facts d w fd) :
    NetStep w d d' (.remove fd rest p) pc := by
  cases h with
  | close i =>
    refine .close hp rfl ?_
    rw [hp.2.2]
  | swap => exact .swap hp.1 rfl rfl
  | _ => exact .same rfl rfl rfl rfl

lemma WorkerStep.net {C : Config} {w : ℕ} {o : Oracle} {d d' : Data} {pc pc' : Pc}
    (h : WorkerStep C w o d pc d' pc') (hp : pc.Facts C d w) : NetStep w d d' pc pc' := by
  cases h with
  | handler h => exact h.net hp.2.1
  | remove h => exact h.net hp.2
  | enter => exact .same rfl rfl rfl (handleRequest_entered _ _).closed
  | _ => exact .same rfl rfl rfl rfl

namespace PollOk

variable {C : Config} {d d' : Data} {w i : ℕ} {fd : ℤ}

lemma congr (h : PollOk C d w) (hp : d'.pollSets w = d.pollSets w) : PollOk C d' w := by
  refine ⟨?_, ?_, ?_, ?_, ?_⟩
  · rw [hp]
    exact h.pos
  · rw [hp]
    exact h.pipe
  · rw [Data.activeUser, hp]
    exact h.idlePipe
  · rw [hp]
    intro j hj
    rw [Data.activeUser, hp]
    exact h.idle j hj
  · rw [hp]
    exact h.bound

lemma setActiveUser (h : PollOk C d w) (u : Option Bytes) (hs : Slot d w i fd) :
    PollOk C (d.setActiveUser w i u) w := by
  have hactive : ∀ j, j ≠ i → (d.setActiveUser w i u).activeUser w j = d.activeUser w j := by
    intro j hj
    simp [Data.setActiveUser, Data.setPollSet, Data.activeUser, PollSet.setActiveUser, hj]
  have hset : (d.setActiveUser w i u).pollSets w = (d.pollSets w).setActiveUser i u := by
    simp [Data.setActiveUser, Data.setPollSet]
  refine ⟨?_, ?_, ?_, ?_, ?_⟩
  · rw [hset]
    exact h.pos
  · rw [hset]
    exact h.pipe
  · rw [hactive 0 hs.1.ne]
    exact h.idlePipe
  · rw [hset]
    intro j hj
    rw [hactive j (hs.2.1.trans_le hj).ne']
    exact h.idle j hj
  · rw [hset]
    exact h.bound

lemma swap (h : PollOk C d w) (hs : Slot d w i fd) :
    PollOk C (d.setPollSet w ((d.pollSets w).swap i)) w := by
  obtain ⟨hpos, hlt, -⟩ := hs
  have hset : (d.setPollSet w ((d.pollSets w).swap i)).pollSets w = (d.pollSets w).swap i :=
    Function.update_self ..
  have hzero : 0 < ((d.pollSets w).swap i).size := by
    simp only [PollSet.swap]
    omega
  obtain ⟨hfd, hactive⟩ := (d.pollSets w).swap_slot i hzero
  rw [if_neg hpos.ne] at hfd hactive
  refine ⟨?_, ?_, ?_, ?_, ?_⟩
  · rwa [hset]
  · rw [hset, hfd]
    exact h.pipe
  · rw [Data.activeUser, hset, hactive]
    exact h.idlePipe
  · rw [hset]
    intro j hj
    rw [Data.activeUser, hset]
    simp only [PollSet.swap] at hj ⊢
    by_cases hl : j = (d.pollSets w).size - 1
    · rw [hl, Function.update_self]
    · rw [Function.update_of_ne hl, Function.update_of_ne (by omega)]
      exact h.idle j (by omega)
  · rw [hset]
    exact (Nat.sub_le _ _).trans h.bound

lemma add (h : PollOk C d w) (hlt : (d.pollSets w).size < clientsPerThread) :
    PollOk C (d.setPollSet w ((d.pollSets w).add fd)) w := by
  have hset : (d.setPollSet w ((d.pollSets w).add fd)).pollSets w = (d.pollSets w).add fd :=
    Function.update_self ..
  refine ⟨?_, ?_, ?_, ?_, ?_⟩
  · rw [hset]
    exact Nat.succ_pos _
  · rw [hset]
    simp only [PollSet.add, Function.update_of_ne h.pos.ne]
    exact h.pipe
  · rw [Data.activeUser, hset]
    simp only [PollSet.add, Function.update_of_ne h.pos.ne]
    exact h.idlePipe
  · rw [hset]
    intro j hj
    rw [Data.activeUser, hset]
    simp only [PollSet.add] at hj ⊢
    rw [Function.update_of_ne (by omega)]
    exact h.idle j (by omega)
  · rw [hset]
    exact hlt

end PollOk

lemma NetStep.pollOk {C : Config} {w : ℕ} {d d' : Data} {pc pc' : Pc}
    (h : NetStep w d d' pc pc') (hok : ∀ v, PollOk C d v) (v : ℕ) : PollOk C d' v := by
  cases h with
  | same hp => exact (hok v).congr (by rw [hp])
  | active hs _ hp | close hs hp =>
    by_cases hv : v = w
    · subst v
      exact ((hok w).setActiveUser _ hs).congr (by rw [hp])
    · exact (hok v).congr (by rw [hp]; exact pollSets_setPollSet_ne _ hv)
  | swap hs hp =>
    by_cases hv : v = w
    · subst v
      exact ((hok w).swap hs).congr (by rw [hp])
    · exact (hok v).congr (by rw [hp]; exact pollSets_setPollSet_ne _ hv)

def MainPoint.inHand : MainPoint → Option ℤ
  | findLock _ _ connfd => some connfd
  | findUnlock _ _ _ connfd => some connfd
  | spin connfd => some connfd
  | addLock _ connfd => some connfd
  | addUnlockFull _ connfd => some connfd
  | _ => none

lemma inHand_findNext (n i : ℕ) (best : Option (ℕ × ℕ)) (connfd : ℤ) :
    (findNext n i best connfd).inHand = some connfd := by
  simp only [findNext]
  split_ifs
  · rfl
  · cases best <;> rfl

inductive MainStep (d d' : Data) : MainPoint → MainPoint → Prop
  | accept {connfd : ℤ} {p' : MainPoint} (hfree : d.opened connfd = false)
      (hd : d' = { d with opened := Function.update d.opened connfd true })
      (hp : p'.inHand = some connfd) : MainStep d d' .accepting p'
  | pass {p p' : MainPoint} (hd : d' = d) (hp : p'.inHand = p.inHand) : MainStep d d' p p'
  | give {j : ℕ} {connfd : ℤ} (hlt : (d.pollSets j).size < clientsPerThread)
      (hd : d' = d.setPollSet j ((d.pollSets j).add connfd)) :
      MainStep d d' (.addLock j connfd) (.addUnlock j connfd)
  | drop {j : ℕ} {connfd : ℤ}
      (hd : d' = { d with opened := Function.update d.opened connfd false }) :
      MainStep d d' (.addUnlockFull j connfd) .accepting

lemma mainCode_step {n : ℕ} {o : Oracle} {d d' : Data} {p p' : MainPoint}
    (h : mainCode n o d p = .next (d', p')) : MainStep d d' p p' := by
  cases p with
  | accepting =>
    simp only [mainCode] at h
    split at h
    · cases h
    · rename_i hfree
      cases h
      exact .accept (by simpa using hfree) rfl (inHand_findNext ..)
  | findUnlock i best size connfd =>
    cases h
    exact .pass rfl (inHand_findNext ..)
  | spin connfd =>
    cases h
    exact .pass rfl (inHand_findNext ..)
  | addLock j connfd =>
    simp only [mainCode] at h
    split at h <;> cases h
    · exact .pass rfl rfl
    · exact .give (by omega) rfl
  | addUnlockFull j connfd =>
    cases h
    exact .drop rfl
  | findLock i best connfd | addUnlock j connfd =>
    cases h
    exact .pass rfl rfl

lemma MainStep.pollOk {C : Config} {d d' : Data} {p p' : MainPoint} (h : MainStep d d' p p')
    (hok : ∀ v, PollOk C d v) (v : ℕ) : PollOk C d' v := by
  cases h with
  | accept _ hd | drop hd =>
    subst hd
    exact (hok v).congr rfl
  | pass hd =>
    subst hd
    exact hok v
  | @give j connfd hlt hd =>
    subst hd
    by_cases hv : v = j
    · subst v
      exact (hok j).add hlt
    · exact (hok v).congr (pollSets_setPollSet_ne _ hv)

structure Local (C : Config) (s : Server C) : Prop where
  poll : ∀ w, PollOk C s.data w
  facts : ∀ w : Fin C.nCores, (s.pc (.worker w)).Facts C s.data w

lemma initial_local (C : Config) : Local C (Program.start (initialData C) initialPc) := by
  refine ⟨fun w => ⟨?_, ?_, rfl, fun _ _ => rfl, ?_⟩, fun w => trivial⟩
  · exact Nat.one_pos
  · simp [Program.start, initialData, createPollSet]
  · simp [Program.start, initialData, createPollSet, clientsPerThread]

lemma main_step {C : Config} {s s' : Server C} {o : Oracle}
    (h : (server C).step s .main o = .next s') : ∃ p d' p', s.pc .main = .main p ∧
      MainStep s.data d' p p' ∧ s'.data = d' ∧
      s'.pc = Function.update s.pc .main (.main p') := by
  obtain ⟨_, d', pc', hc, rfl⟩ := Program.step_next h
  cases hp : s.pc .main <;> simp only [server, hp] at hc <;> try cases hc
  rename_i p
  split at hc <;> cases hc
  exact ⟨p, _, _, rfl, mainCode_step ‹_›, rfl, rfl⟩

lemma worker_step {C : Config} {s s' : Server C} {w : Fin C.nCores} {o : Oracle}
    (h : (server C).step s (.worker w) o = .next s') : ∃ d' pc',
      workerCode C w o s.data (s.pc (.worker w)) = .next (d', pc') ∧ s'.data = d' ∧
      s'.pc = Function.update s.pc (.worker w) pc' := by
  obtain ⟨_, d', pc', hc, rfl⟩ := Program.step_next h
  exact ⟨d', pc', hc, rfl, rfl⟩

lemma Local.step {C : Config} {s s' : Server C} {t : Thread C.nCores} {o : Oracle}
    (hl : Local C s) (ho : (discipline C).Owns s) (h : (server C).step s t o = .next s') :
    Local C s' := by
  have hother : ∀ w : Fin C.nCores, t ≠ .worker w → (s'.pc (.worker w)).Facts C s'.data w := by
    intro w hw
    obtain ⟨hf, hpc⟩ := frame ho h hw
    rw [hpc]
    exact hf.facts (hl.facts w)
  cases t with
  | main =>
    refine ⟨?_, fun w => hother w (by simp)⟩
    obtain ⟨p, d', p', _, hc, rfl, _⟩ := main_step h
    exact hc.pollOk hl.poll
  | worker w =>
    obtain ⟨d', pc', hc, rfl, hpc⟩ := worker_step h
    refine ⟨((workerCode_step hc).net (hl.facts w)).pollOk hl.poll, fun v => ?_⟩
    by_cases hv : v = w
    · subst v
      rw [hpc, Function.update_self]
      exact (workerCode_step hc).facts (hl.poll w) (hl.facts w)
    · exact hother v (by simpa using Ne.symm hv)

lemma Reachable.local {C : Config} {s : Server C} (hs : Reachable C s) : Local C s :=
  Program.Reachable.invariant (Local C) hs (initial_local C)
    fun _ _ _ _ hr hl he => hl.step (Reachable.owns hr) he

end SystemsLab.Reservation
