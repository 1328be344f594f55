import SystemsLab.Reservation.Descriptors
import Mathlib.Data.List.Nodup

namespace SystemsLab.Reservation

open CLib Threads Function

def Pc.inHand : Pc → Option ℤ
  | main p => p.inHand
  | _ => none

def Pc.pending : Pc → List (ℤ × Bool)
  | snapped locals => locals.map fun fd => (fd, false)
  | polling locals => locals.map fun fd => (fd, false)
  | serve ready => ready
  | find _ _ rest => rest
  | found _ _ _ rest => rest
  | handler c _ => c.rest
  | respond c _ => c.rest
  | remove _ rest _ => rest
  | _ => []

def Pc.waiting (pc : Pc) : List ℤ := pc.pending.map Prod.fst

lemma waiting_snapped (locals : List ℤ) : (Pc.snapped locals).waiting = locals := by
  simp [Pc.waiting, Pc.pending, Function.comp_def]

lemma waiting_polling (locals : List ℤ) : (Pc.polling locals).waiting = locals :=
  waiting_snapped locals

variable {C : Config}

def Live (s : Server C) (w : Fin C.nCores) (i : ℕ) : Prop :=
  i < (s.data.pollSets w).size ∧ (s.pc (.worker w)).closed ≠ some i

def fdAt (s : Server C) (w : Fin C.nCores) (i : ℕ) : ℤ := (s.data.pollSets w).fd i

section Steps

variable {w : ℕ} {d d' : Data} {pc pc' : Pc}

lemma NetStep.embed (h : NetStep w d d' pc pc') :
    ∃ φ : ℕ → ℕ, ∀ i, i < (d'.pollSets w).size → pc'.closed ≠ some i →
      φ i < (d.pollSets w).size ∧ pc.closed ≠ some (φ i) ∧ pc'.closed ≠ some (φ i) ∧
      (d.pollSets w).fd (φ i) = (d'.pollSets w).fd i ∧
      (pc.current ≠ some ((d'.pollSets w).fd i) → d'.activeUser w i = d.activeUser w (φ i)) ∧
      ∀ j, j < (d'.pollSets w).size → pc'.closed ≠ some j → φ i = φ j → i = j := by
  cases h with
  | same hp ho hc hc' =>
    refine ⟨id, fun i hi _ => ?_⟩
    rw [Data.activeUser, hp] at *
    exact ⟨hi, by simp [hc], by simp [hc'], rfl, fun _ => rfl, fun _ _ _ he => he⟩
  | @active pc pc' i₀ fd u hs hcur hp ho hc hc' =>
    refine ⟨id, fun i hi _ => ?_⟩
    rw [Data.activeUser, hp, pollSets_setActiveUser] at *
    refine ⟨hi, by simp [hc], by simp [hc'], rfl, fun hne => ?_, fun _ _ _ he => he⟩
    refine update_of_ne ?_ _ _
    rintro rfl
    exact hne (hcur.trans (congrArg some hs.2.2.symm))
  | @close fd rest i₀ hs hp ho =>
    refine ⟨id, fun i hi hc => ?_⟩
    rw [Data.activeUser, hp, pollSets_setActiveUser] at *
    refine ⟨hi, by simp [Pc.closed], hc, rfl, fun _ => ?_, fun _ _ _ he => he⟩
    refine update_of_ne ?_ _ _
    rintro rfl
    exact hc rfl
  | @swap fd rest i₀ hs hp ho =>
    obtain ⟨-, hlt, -⟩ := hs
    refine ⟨fun i => if i = i₀ then (d.pollSets w).size - 1 else i, fun i hi _ => ?_⟩
    have hset : d'.pollSets w = (d.pollSets w).swap i₀ := by
      rw [hp, pollSets_setPollSet]
    rw [hset] at hi
    obtain ⟨hfd, hactive⟩ := (d.pollSets w).swap_slot i₀ hi
    have hlt' : i < (d.pollSets w).size - 1 := hi
    refine ⟨?_, ?_, by simp [Pc.closed], ?_, fun _ => ?_, fun j hj _ he => ?_⟩
    · simp only
      split_ifs <;> omega
    · simp only [Pc.closed, ne_eq, Option.some.injEq]
      split_ifs <;> omega
    · rw [hset, hfd]
    · rw [Data.activeUser, hset, hactive, Data.activeUser]
    · rw [hset] at hj
      have hj' : j < (d.pollSets w).size - 1 := hj
      simp only at he
      split_ifs at he <;> omega

lemma NetStep.keeps (h : NetStep w d d' pc pc') {i : ℕ} (hi : i < (d.pollSets w).size)
    (hci : pc.closed ≠ some i)
    (hne : pc.current ≠ some ((d.pollSets w).fd i) ∨ pc'.current = some ((d.pollSets w).fd i)) :
    ∃ j, j < (d'.pollSets w).size ∧ pc'.closed ≠ some j ∧
      (d'.pollSets w).fd j = (d.pollSets w).fd i ∧
      (pc.current ≠ some ((d.pollSets w).fd i) → d'.activeUser w j = d.activeUser w i) := by
  have hslot : ∀ {i₀ fd}, Slot d w i₀ fd → pc.current = some fd →
      pc.current ≠ some ((d.pollSets w).fd i) → i ≠ i₀ := by
    rintro i₀ fd hs hcur hne rfl
    exact hne (hcur.trans (congrArg some hs.2.2.symm))
  cases h with
  | same hp ho hc hc' =>
    refine ⟨i, ?_, by simp [hc'], ?_, fun _ => ?_⟩
    · rwa [hp]
    · rw [hp]
    · rw [Data.activeUser, hp, Data.activeUser]
  | active hs hcur hp ho hc hc' =>
    refine ⟨i, ?_, by simp [hc'], ?_, fun hne => ?_⟩
    · rwa [hp, pollSets_setActiveUser]
    · rw [hp, pollSets_setActiveUser]
      rfl
    · rw [Data.activeUser, hp, pollSets_setActiveUser]
      exact update_of_ne (hslot hs hcur hne) _ _
  | @close fd rest i₀ hs hp ho =>
    have hi₀ : i ≠ i₀ := by
      rcases hne with hne | hne
      · exact hslot hs rfl hne
      · cases hne
    refine ⟨i, ?_, by simpa [Pc.closed] using Ne.symm hi₀, ?_, fun _ => ?_⟩
    · rwa [hp, pollSets_setActiveUser]
    · rw [hp, pollSets_setActiveUser]
      rfl
    · rw [Data.activeUser, hp, pollSets_setActiveUser]
      exact update_of_ne hi₀ _ _
  | @swap fd rest i₀ hs hp ho =>
    have hi₀ : i ≠ i₀ := by simpa [Pc.closed, eq_comm] using hci
    obtain ⟨-, hlt, -⟩ := hs
    have hset : d'.pollSets w = (d.pollSets w).swap i₀ := by
      rw [hp, pollSets_setPollSet]
    obtain ⟨j, hj, hji⟩ : ∃ j, j < ((d.pollSets w).swap i₀).size ∧
        (if j = i₀ then (d.pollSets w).size - 1 else j) = i := by
      simp only [PollSet.swap]
      by_cases hil : i = (d.pollSets w).size - 1
      · exact ⟨i₀, by omega, by rw [if_pos rfl, hil]⟩
      · exact ⟨i, by omega, if_neg hi₀⟩
    obtain ⟨hfd, hactive⟩ := (d.pollSets w).swap_slot i₀ hj
    refine ⟨j, ?_, by simp [Pc.closed], ?_, fun _ => ?_⟩
    · rwa [hset]
    · rw [hset, hfd, hji]
    · rw [Data.activeUser, hset, hactive, hji, Data.activeUser]

lemma NetStep.opened (h : NetStep w d d' pc pc') :
    d'.opened = d.opened ∨ ∃ i fd, Slot d w i fd ∧ pc.closed = none ∧ pc'.closed = some i ∧
      d'.opened = update d.opened fd false := by
  cases h with
  | same hp ho => exact .inl ho
  | active hs hcur hp ho => exact .inl ho
  | close hs hp ho => exact .inr ⟨_, _, hs, rfl, rfl, ho⟩
  | swap hs hp ho => exact .inl ho

inductive QueueStep (w : ℕ) (d : Data) : Pc → Pc → Prop
  | snapshot : QueueStep w d .top (.snapped (d.pollSets w).fds)
  | take {fd : ℤ} {failed : Bool} {rest : List (ℤ × Bool)} {pc' : Pc}
      (hp : pc'.pending = rest) (hc : pc'.current = none ∨ pc'.current = some fd) :
      QueueStep w d (.serve ((fd, failed) :: rest)) pc'
  | poll {locals : List ℤ} {ready : List (ℤ × Bool)}
      (hr : (ready.map Prod.fst).Sublist locals) : QueueStep w d (.polling locals) (.serve ready)
  | keep {pc pc' : Pc} (hp : pc'.pending = pc.pending)
      (hc : pc'.current = none ∨ pc'.current = pc.current) : QueueStep w d pc pc'

lemma Entered.current {c : Call} {active : Option Bytes} (h : Entered c active pc) :
    pc.pending = c.rest ∧ pc.current = some c.fd := by
  cases h <;> exact ⟨rfl, rfl⟩

lemma RemoveStep.queue {fd : ℤ} {rest : List (ℤ × Bool)} {p : RemovePoint}
    (h : RemoveStep w fd rest d p d' pc) : QueueStep w d (.remove fd rest p) pc := by
  cases h with
  | missing | close | swap | unlockPollSet => exact .keep rfl (.inl rfl)
  | _ => exact .keep rfl (.inr rfl)

lemma WorkerStep.queue {o : Oracle} (h : WorkerStep C w o d pc d' pc') : QueueStep w d pc pc' := by
  cases h with
  | handler h =>
    rcases h.call with ⟨p', rfl⟩ | ⟨response, rfl⟩ <;> exact .keep rfl (.inr rfl)
  | remove h => exact h.queue
  | top => exact .snapshot
  | poll hr => exact .poll hr
  | pipe => exact .take rfl (.inl rfl)
  | hangUp | receive => exact .take rfl (.inr rfl)
  | find fd r rest =>
    cases (d.pollSets w).findFd fd with
    | none => exact .keep rfl (.inl rfl)
    | some i => exact .keep rfl (.inr rfl)
  | enter fd r i rest =>
    obtain ⟨hp, hc⟩ := (handleRequest_entered ⟨fd, r, i, rest⟩ (d.activeUser w i)).current
    exact .keep hp (.inr hc)
  | snapped | again | missing | sent => exact .keep rfl (.inl rfl)
  | unsent => exact .keep rfl (.inr rfl)

end Steps

section Slots

variable {s s' : Server C} {w : Fin C.nCores} {o : Oracle}

lemma worker_other (hl : Local C s) (h : (server C).step s (.worker w) o = .next s')
    {v : Fin C.nCores} (hv : v ≠ w) :
    s'.data.pollSets v = s.data.pollSets v ∧ s'.pc (.worker v) = s.pc (.worker v) := by
  have hsame : s'.pc (.worker v) = s.pc (.worker v) := Program.step_pc_ne h (by simpa using hv)
  obtain ⟨d', pc', hc, rfl, -⟩ := worker_step h
  have hnet := (workerCode_step hc).net (hl.facts w)
  exact ⟨hnet.pollSets_ne fun he => hv (Fin.ext he), hsame⟩

lemma worker_embed (hl : Local C s) (h : (server C).step s (.worker w) o = .next s')
    (v : Fin C.nCores) : ∃ φ : ℕ → ℕ, ∀ i, Live s' v i → Live s v (φ i) ∧
      (s'.pc (.worker v)).closed ≠ some (φ i) ∧ fdAt s v (φ i) = fdAt s' v i ∧
      ((s.pc (.worker w)).current ≠ some (fdAt s' v i) →
        s'.data.activeUser v i = s.data.activeUser v (φ i)) ∧
      ∀ j, Live s' v j → φ i = φ j → i = j := by
  obtain ⟨d', pc', hc, rfl, hpc⟩ := worker_step h
  have hnet := (workerCode_step hc).net (hl.facts w)
  by_cases hv : v = w
  · subst v
    have hw : s'.pc (.worker w) = pc' := by rw [hpc, update_self]
    obtain ⟨φ, hφ⟩ := hnet.embed
    refine ⟨φ, fun i hi => ?_⟩
    rw [Live, hw] at hi
    obtain ⟨hlt, hclosed, hclosed', hfd, hactive, hinj⟩ := hφ i hi.1 hi.2
    refine ⟨⟨hlt, hclosed⟩, by rwa [hw], hfd, hactive, fun j hj => ?_⟩
    rw [Live, hw] at hj
    exact hinj j hj.1 hj.2
  · obtain ⟨hset, hsame⟩ := worker_other hl h hv
    refine ⟨id, fun i hi => ?_⟩
    have hi' := hi
    rw [Live, hset, hsame] at hi
    refine ⟨hi, by rw [hsame]; exact hi.2, ?_, fun _ => ?_, fun _ _ he => he⟩
    · rw [fdAt, fdAt, hset]
      rfl
    · rw [Data.activeUser, hset]
      rfl

lemma worker_keeps (hl : Local C s) (h : (server C).step s (.worker w) o = .next s')
    {v : Fin C.nCores} {i : ℕ} (hi : Live s v i)
    (hne : v = w → (s.pc (.worker w)).current ≠ some (fdAt s v i) ∨
      (s'.pc (.worker w)).current = some (fdAt s v i)) :
    ∃ j, Live s' v j ∧ fdAt s' v j = fdAt s v i ∧
      ((v = w → (s.pc (.worker w)).current ≠ some (fdAt s v i)) →
        s'.data.activeUser v j = s.data.activeUser v i) := by
  obtain ⟨d', pc', hc, rfl, hpc⟩ := worker_step h
  have hnet := (workerCode_step hc).net (hl.facts w)
  by_cases hv : v = w
  · subst v
    have hw : s'.pc (.worker w) = pc' := by rw [hpc, update_self]
    rw [hw] at hne
    obtain ⟨j, hlt, hclosed, hfd, hactive⟩ := hnet.keeps hi.1 hi.2 (hne rfl)
    exact ⟨j, ⟨hlt, by rwa [hw]⟩, hfd, fun hn => hactive (hn rfl)⟩
  · obtain ⟨hset, hsame⟩ := worker_other hl h hv
    refine ⟨i, ?_, ?_, fun _ => ?_⟩
    · rw [Live, hset, hsame]
      exact hi
    · rw [fdAt, fdAt, hset]
    · rw [Data.activeUser, Data.activeUser, hset]

lemma main_pc (h : (server C).step s .main o = .next s') (w : Fin C.nCores) :
    s'.pc (.worker w) = s.pc (.worker w) :=
  Program.step_pc_ne h (by simp)

lemma main_keeps (h : (server C).step s .main o = .next s') {v : Fin C.nCores} {i : ℕ}
    (hi : Live s v i) : Live s' v i ∧ fdAt s' v i = fdAt s v i ∧
      s'.data.activeUser v i = s.data.activeUser v i := by
  have hpc := main_pc h v
  obtain ⟨p, d', p', _, hm, rfl, _⟩ := main_step h
  have hset : s'.data.pollSets v = s.data.pollSets v ∨
      ∃ fd, s'.data.pollSets v = (s.data.pollSets v).add fd := by
    cases hm with
    | accept _ hd | drop hd | pass hd =>
      rw [hd]
      exact .inl rfl
    | @give j connfd hlt hd =>
      rw [hd]
      by_cases hv : (v : ℕ) = j
      · rw [← hv]
        exact .inr ⟨connfd, pollSets_setPollSet ..⟩
      · exact .inl (pollSets_setPollSet_ne _ hv)
  rcases hset with hset | ⟨fd, hset⟩
  · simp only [Live, fdAt, Data.activeUser, hset, hpc]
    exact ⟨hi, trivial, trivial⟩
  · simp only [Live, fdAt, Data.activeUser, hset, hpc, PollSet.add]
    exact ⟨⟨Nat.lt_succ_of_lt hi.1, hi.2⟩, update_of_ne hi.1.ne _ _, update_of_ne hi.1.ne _ _⟩

lemma main_embed (h : (server C).step s .main o = .next s') {v : Fin C.nCores} {i : ℕ}
    (hi : Live s' v i) : (Live s v i ∧ fdAt s' v i = fdAt s v i) ∨
      i = (s.data.pollSets v).size ∧ s.pc .main = .main (.addLock v (fdAt s' v i)) ∧
        (s'.pc .main).inHand = none ∧ s'.data.activeUser v i = none := by
  have hpc := main_pc h v
  obtain ⟨p, d', p', hp, hm, rfl, hpc'⟩ := main_step h
  rw [Live, hpc] at hi
  cases hm with
  | accept _ hd | drop hd | pass hd =>
    rw [hd] at hi
    refine .inl ⟨hi, ?_⟩
    rw [fdAt, hd, fdAt]
  | @give j connfd hlt hd =>
    by_cases hv : (v : ℕ) = j
    · have hset : s'.data.pollSets v = (s.data.pollSets v).add connfd := by
        rw [hd, ← hv, pollSets_setPollSet]
      rw [hset] at hi
      rcases Nat.lt_succ_iff_lt_or_eq.mp hi.1 with hlt | rfl
      · refine .inl ⟨⟨hlt, hi.2⟩, ?_⟩
        rw [fdAt, hset]
        exact update_of_ne hlt.ne _ _
      · refine .inr ⟨rfl, ?_, ?_, ?_⟩
        · have hfd : fdAt s' v (s.data.pollSets v).size = connfd := by
            rw [fdAt, hset]
            exact update_self ..
          rw [hp, hfd, hv]
        · rw [hpc', update_self]
          rfl
        · rw [Data.activeUser, hset]
          exact update_self ..
    · have hset : s'.data.pollSets v = s.data.pollSets v := by
        rw [hd, pollSets_setPollSet_ne _ hv]
      rw [hset] at hi
      refine .inl ⟨hi, ?_⟩
      rw [fdAt, hset, fdAt]

end Slots

lemma closed_slot {d : Data} {w i : ℕ} {pc : Pc} (hp : pc.Facts C d w) (hc : pc.closed = some i) :
    0 < i ∧ i < (d.pollSets w).size := by
  cases pc with
  | remove fd rest p =>
    cases p <;> cases hc
    exact ⟨hp.2.1.1, hp.2.1.2.1⟩
  | _ => cases hc

structure Connected (s : Server C) : Prop where
  opened : ∀ {w i}, Live s w i → s.data.opened (fdAt s w i) = true
  distinct : ∀ {w i v j}, Live s w i → Live s v j → fdAt s w i = fdAt s v j → w = v ∧ i = j
  hand : ∀ {fd}, (s.pc .main).inHand = some fd →
    s.data.opened fd = true ∧ ∀ w i, Live s w i → fdAt s w i ≠ fd
  nodup : ∀ w, ((s.pc (.worker w)).current.toList ++ (s.pc (.worker w)).waiting).Nodup
  live : ∀ {w fd}, fd ∈ (s.pc (.worker w)).waiting → ∃ i, Live s w i ∧ fdAt s w i = fd
  busy : ∀ {w fd}, (s.pc (.worker w)).current = some fd → ∃ i, Live s w i ∧ fdAt s w i = fd

namespace Connected

variable {s s' : Server C} {w : Fin C.nCores} {o : Oracle}

lemma waiting_ne (hk : Connected s) {fd fd' : ℤ} (hc : (s.pc (.worker w)).current = some fd)
    (hw : fd' ∈ (s.pc (.worker w)).waiting) : fd' ≠ fd := by
  have hn := hk.nodup w
  rw [hc] at hn
  rintro rfl
  exact (List.nodup_cons.mp hn).1 hw

lemma adding (hk : Connected s) {v : ℕ} {fd : ℤ} (hp : s.pc .main = .main (.addLock v fd)) :
    s.data.opened fd = true ∧ ∀ w i, Live s w i → fdAt s w i ≠ fd :=
  hk.hand (by rw [hp]; rfl)

lemma main_opened (hk : Connected s) (h : (server C).step s .main o = .next s') {v : Fin C.nCores}
    {i : ℕ} (hi : Live s' v i) : s'.data.opened (fdAt s' v i) = true := by
  have hembed := main_embed h hi
  have hold : s.data.opened (fdAt s' v i) = true := by
    rcases hembed with ⟨hi, hfd⟩ | ⟨_, hp, _⟩
    · rw [hfd]
      exact hk.opened hi
    · exact (hk.adding hp).1
  obtain ⟨p, d', p', hp, hm, rfl, _⟩ := Reservation.main_step h
  cases hm with
  | @accept connfd _ _ hd =>
    have ho : s'.data.opened = update s.data.opened connfd true := by rw [hd]
    rw [ho]
    by_cases he : fdAt s' v i = connfd
    · rw [he, update_self]
    · rwa [update_of_ne he]
  | pass hd | give _ hd =>
    rw [hd]
    exact hold
  | @drop j connfd hd =>
    have ho : s'.data.opened = update s.data.opened connfd false := by rw [hd]
    rw [ho, update_of_ne, hold]
    rcases hembed with ⟨hi, hfd⟩ | ⟨_, hp', _⟩
    · rw [hfd]
      exact (hk.hand (by rw [hp]; rfl)).2 v i hi
    · rw [hp] at hp'
      cases hp'

lemma main_distinct (hk : Connected s) (h : (server C).step s .main o = .next s')
    {v w : Fin C.nCores} {i j : ℕ} (hi : Live s' v i) (hj : Live s' w j)
    (he : fdAt s' v i = fdAt s' w j) : v = w ∧ i = j := by
  rcases main_embed h hi with ⟨hi', hfi⟩ | ⟨hi', hpi, _⟩ <;>
    rcases main_embed h hj with ⟨hj', hfj⟩ | ⟨hj', hpj, _⟩
  · exact hk.distinct hi' hj' (by rw [← hfi, ← hfj, he])
  · exact absurd (hfi ▸ he) ((hk.adding hpj).2 v i hi')
  · exact absurd (hfj ▸ he.symm) ((hk.adding hpi).2 w j hj')
  · rw [hpi] at hpj
    simp only [Pc.main.injEq, MainPoint.addLock.injEq] at hpj
    obtain rfl : v = w := Fin.ext hpj.1
    exact ⟨rfl, by rw [hi', hj']⟩

lemma main_hand (hk : Connected s) (h : (server C).step s .main o = .next s') {fd : ℤ}
    (hfd : (s'.pc .main).inHand = some fd) :
    s'.data.opened fd = true ∧ ∀ w i, Live s' w i → fdAt s' w i ≠ fd := by
  have hlive : ∀ {v i}, Live s' v i → Live s v i ∧ fdAt s' v i = fdAt s v i := by
    intro v i hi
    rcases main_embed h hi with hi | ⟨_, _, hnone, _⟩
    · exact hi
    · rw [hnone] at hfd
      cases hfd
  obtain ⟨p, d', p', hp, hm, rfl, hpc'⟩ := Reservation.main_step h
  rw [hpc', update_self] at hfd
  cases hm with
  | @accept connfd _ hfree hd hp' =>
    obtain rfl : connfd = fd := Option.some.inj (hp'.symm.trans hfd)
    have ho : s'.data.opened = update s.data.opened connfd true := congrArg Data.opened hd
    refine ⟨by rw [ho, update_self], fun v i hi he => ?_⟩
    obtain ⟨hi, hfi⟩ := hlive hi
    have ho := hk.opened hi
    rw [← hfi, he, hfree] at ho
    cases ho
  | pass hd hp' =>
    obtain ⟨ho, hne⟩ := @Connected.hand _ _ hk fd (by rw [hp]; exact hp'.symm.trans hfd)
    refine ⟨by rw [hd, ho], fun v i hi => ?_⟩
    obtain ⟨hi, hfi⟩ := hlive hi
    rw [hfi]
    exact hne v i hi
  | give | drop => cases hfd

lemma main_step (hk : Connected s) (h : (server C).step s .main o = .next s') : Connected s' := by
  have hpc := main_pc h
  have hkeeps : ∀ {v : Fin C.nCores} {fd : ℤ}, (∃ i, Live s v i ∧ fdAt s v i = fd) →
      ∃ i, Live s' v i ∧ fdAt s' v i = fd := by
    rintro v fd ⟨i, hi, rfl⟩
    obtain ⟨hi', hfd, _⟩ := main_keeps h hi
    exact ⟨i, hi', hfd⟩
  refine ⟨hk.main_opened h, hk.main_distinct h, hk.main_hand h, fun w => ?_, fun {w fd} hin => ?_,
    fun {w fd} hp => ?_⟩
  · rw [hpc]
    exact hk.nodup w
  · rw [hpc] at hin
    exact hkeeps (hk.live hin)
  · rw [hpc] at hp
    exact hkeeps (hk.busy hp)

lemma live_of_mem_fds (hc : (s.pc (.worker w)).closed = none) {fd : ℤ}
    (hin : fd ∈ (s.data.pollSets w).fds) : ∃ i, Live s w i ∧ fdAt s w i = fd := by
  obtain ⟨i, hi, rfl⟩ := List.mem_map.mp hin
  exact ⟨i, ⟨List.mem_range.mp hi, by rw [hc]; nofun⟩, rfl⟩

lemma nodup_fds (hk : Connected s) (hc : (s.pc (.worker w)).closed = none) :
    (s.data.pollSets w).fds.Nodup := by
  refine List.Nodup.map_on (fun i hi j hj he => ?_) List.nodup_range
  have hlive : ∀ k ∈ List.range (s.data.pollSets w).size, Live s w k := fun k hk' =>
    ⟨List.mem_range.mp hk', by rw [hc]; nofun⟩
  exact (hk.distinct (hlive i hi) (hlive j hj) he).2

lemma nodup_step (hk : Connected s) {pc' : Pc} (h : QueueStep w s.data (s.pc (.worker w)) pc') :
    (pc'.current.toList ++ pc'.waiting).Nodup := by
  have hn := hk.nodup w
  generalize hpc : s.pc (.worker w) = pc at h hn
  cases h with
  | snapshot =>
    have hfds := hk.nodup_fds (w := w) (by rw [hpc]; rfl)
    rwa [waiting_snapped]
  | @take fd failed rest pc' hp hc =>
    simp only [Pc.current, Pc.waiting, Pc.pending, List.map_cons, Option.toList_none,
      List.nil_append] at hn
    rw [Pc.waiting, hp]
    rcases hc with hc | hc <;> rw [hc]
    · exact (List.nodup_cons.mp hn).2
    · exact hn
  | @poll locals ready hr =>
    rw [waiting_polling] at hn
    exact List.Nodup.sublist hr hn
  | keep hp hc =>
    rw [Pc.waiting, hp]
    rcases hc with hc | hc <;> rw [hc]
    · exact (List.nodup_append.mp hn).2.1
    · exact hn

lemma waiting_step (hk : Connected s) {pc' : Pc} {fd : ℤ}
    (h : QueueStep w s.data (s.pc (.worker w)) pc') (hin : fd ∈ pc'.waiting) :
    (∃ i, Live s w i ∧ fdAt s w i = fd) ∧ (s.pc (.worker w)).current ≠ some fd := by
  have hl : fd ∈ (s.pc (.worker w)).waiting → ∃ i, Live s w i ∧ fdAt s w i = fd := hk.live
  have hw : ∀ fd', (s.pc (.worker w)).current = some fd' → fd ∈ (s.pc (.worker w)).waiting →
      fd ≠ fd' := fun fd' => hk.waiting_ne
  generalize hpc : s.pc (.worker w) = pc at h hl hw
  cases h with
  | snapshot =>
    rw [waiting_snapped] at hin
    exact ⟨live_of_mem_fds (by rw [hpc]; rfl) hin, nofun⟩
  | @take fd' failed rest pc' hp hc =>
    rw [Pc.waiting, hp] at hin
    exact ⟨hl (List.mem_cons_of_mem _ hin), nofun⟩
  | @poll locals ready hr =>
    rw [waiting_polling] at hl
    exact ⟨hl (hr.subset hin), nofun⟩
  | keep hp hc =>
    rw [Pc.waiting, hp] at hin
    exact ⟨hl hin, fun hcur => hw fd hcur hin rfl⟩

lemma busy_step (hk : Connected s) {pc' : Pc} {fd : ℤ}
    (h : QueueStep w s.data (s.pc (.worker w)) pc') (hp : pc'.current = some fd) :
    ∃ i, Live s w i ∧ fdAt s w i = fd := by
  have hl : fd ∈ (s.pc (.worker w)).waiting → ∃ i, Live s w i ∧ fdAt s w i = fd := hk.live
  have hb : (s.pc (.worker w)).current = some fd → ∃ i, Live s w i ∧ fdAt s w i = fd := hk.busy
  generalize hpc : s.pc (.worker w) = pc at h hl hb
  cases h with
  | @take fd' failed rest pc' hp' hc =>
    rw [hp] at hc
    obtain rfl : fd = fd' := by simpa using hc
    exact hl (by simp [Pc.waiting, Pc.pending])
  | snapshot | poll => cases hp
  | keep hp' hc =>
    rw [hp] at hc
    exact hb (by simpa [eq_comm] using hc)

lemma worker_keeps_open (hl : Local C s) (h : (server C).step s (.worker w) o = .next s') {fd : ℤ}
    (ho : s.data.opened fd = true) (hne : ∀ i, Live s w i →
      (s'.pc (.worker w)).closed = some i → fdAt s w i ≠ fd) : s'.data.opened fd = true := by
  obtain ⟨d', pc', hc, rfl, hpc⟩ := Reservation.worker_step h
  rcases ((workerCode_step hc).net (hl.facts w)).opened with ho' | ⟨i, fd', hs, hc, hc', ho'⟩
  · rwa [ho']
  · rw [ho', update_of_ne, ho]
    rintro rfl
    refine hne i ⟨hs.2.1, by rw [hc]; nofun⟩ ?_ hs.2.2
    rw [hpc, update_self, hc']

lemma worker_opened (hk : Connected s) (hl : Local C s)
    (h : (server C).step s (.worker w) o = .next s') {v : Fin C.nCores} {i : ℕ}
    (hi : Live s' v i) : s'.data.opened (fdAt s' v i) = true := by
  obtain ⟨φ, hφ⟩ := worker_embed hl h v
  obtain ⟨hi', hc', hfd, _⟩ := hφ i hi
  refine worker_keeps_open hl h (hfd ▸ hk.opened hi') fun j hj hclosed he => ?_
  obtain ⟨rfl, rfl⟩ := hk.distinct hi' hj (hfd.trans he.symm)
  exact hc' hclosed

lemma worker_distinct (hk : Connected s) (hl : Local C s)
    (h : (server C).step s (.worker w) o = .next s') {v u : Fin C.nCores} {i j : ℕ}
    (hi : Live s' v i) (hj : Live s' u j) (he : fdAt s' v i = fdAt s' u j) : v = u ∧ i = j := by
  obtain ⟨φ, hφ⟩ := worker_embed hl h v
  obtain ⟨ψ, hψ⟩ := worker_embed hl h u
  obtain ⟨hi', _, hfi, _, hinj⟩ := hφ i hi
  obtain ⟨hj', _, hfj, _⟩ := hψ j hj
  obtain ⟨rfl, _⟩ := hk.distinct hi' hj' (by rw [hfi, hfj, he])
  obtain ⟨hj', _, hfj, _⟩ := hφ j hj
  exact ⟨rfl, hinj j hj (hk.distinct hi' hj' (by rw [hfi, hfj, he])).2⟩

lemma worker_hand (hk : Connected s) (hl : Local C s)
    (h : (server C).step s (.worker w) o = .next s') {fd : ℤ}
    (hfd : (s'.pc .main).inHand = some fd) :
    s'.data.opened fd = true ∧ ∀ w i, Live s' w i → fdAt s' w i ≠ fd := by
  rw [Program.step_pc_ne h (by simp)] at hfd
  obtain ⟨ho, hne⟩ := hk.hand hfd
  refine ⟨worker_keeps_open hl h ho fun i hi _ => hne w i hi, fun v i hi => ?_⟩
  obtain ⟨φ, hφ⟩ := worker_embed hl h v
  obtain ⟨hi', _, hfi, _⟩ := hφ i hi
  rw [← hfi]
  exact hne v _ hi'

lemma worker_step (hk : Connected s) (hl : Local C s)
    (h : (server C).step s (.worker w) o = .next s') : Connected s' := by
  have hkeeps : ∀ {v : Fin C.nCores} {fd : ℤ}, (∃ i, Live s v i ∧ fdAt s v i = fd) →
      (v = w → (s.pc (.worker w)).current ≠ some fd ∨ (s'.pc (.worker w)).current = some fd) →
      ∃ i, Live s' v i ∧ fdAt s' v i = fd := by
    rintro v fd ⟨i, hi, rfl⟩ hne
    obtain ⟨j, hj, hfd, _⟩ := worker_keeps hl h hi hne
    exact ⟨j, hj, hfd⟩
  obtain ⟨d', pc', hc, -, hpc⟩ := Reservation.worker_step h
  have hqueue := (workerCode_step hc).queue
  have hpcw : s'.pc (.worker w) = pc' := by rw [hpc, update_self]
  have hpcv : ∀ v, v ≠ w → s'.pc (.worker v) = s.pc (.worker v) :=
    fun v hv => Program.step_pc_ne h (by simpa using hv)
  refine ⟨hk.worker_opened hl h, hk.worker_distinct hl h, hk.worker_hand hl h, fun v => ?_,
    fun {v fd} hin => ?_, fun {v fd} hp => ?_⟩
  · by_cases hv : v = w
    · subst v
      rw [hpcw]
      exact hk.nodup_step hqueue
    · rw [hpcv v hv]
      exact hk.nodup v
  · by_cases hv : v = w
    · subst v
      rw [hpcw] at hin
      obtain ⟨hlive, hne⟩ := hk.waiting_step hqueue hin
      exact hkeeps hlive fun _ => .inl hne
    · rw [hpcv v hv] at hin
      exact hkeeps (hk.live hin) fun he => absurd he hv
  · by_cases hv : v = w
    · subst v
      rw [hpcw] at hp
      exact hkeeps (hk.busy_step hqueue hp) fun _ => .inr (by rw [hpcw, hp])
    · rw [hpcv v hv] at hp
      exact hkeeps (hk.busy hp) fun he => absurd he hv

end Connected

lemma initial_connected (C : Config) :
    Connected (C := C) (Program.start (initialData C) initialPc) := by
  have hzero : ∀ {w : Fin C.nCores} {i : ℕ},
      Live (C := C) (Program.start (initialData C) initialPc) w i → i = 0 := by
    intro w i hi
    exact Nat.lt_one_iff.mp hi.1
  have hfd : ∀ w : Fin C.nCores,
      fdAt (C := C) (Program.start (initialData C) initialPc) w 0 = C.pipeOut w := fun w => rfl
  refine ⟨?_, ?_, ?_, fun _ => List.nodup_nil, ?_, ?_⟩
  · intro w i hi
    rw [hzero hi, hfd]
    exact C.pipeOut_reserved w w.isLt
  · intro w i v j hi hj he
    rw [hzero hi, hzero hj, hfd, hfd] at he
    exact ⟨Fin.ext (C.pipeOut_ne w w.isLt v v.isLt he), by rw [hzero hi, hzero hj]⟩
  · intro fd hfd
    cases hfd
  · intro w fd hin
    cases hin
  · intro w fd hp
    cases hp

lemma Reachable.connected {s : Server C} (hs : Reachable C s) : Connected s := by
  refine Program.Reachable.invariant Connected hs (initial_connected C) fun a b t o hr hk he => ?_
  cases t with
  | main => exact hk.main_step he
  | worker w => exact hk.worker_step (Reachable.local hr) he

section Accepting

def Suitable (n : ℕ) (d : Data) (best : Option (ℕ × ℕ)) : Prop :=
  ∀ j size, best = some (j, size) → j < n ∧ (d.pollSets j).size ≤ size ∧ size < clientsPerThread

def MainPoint.Facts (n : ℕ) (d : Data) : MainPoint → Prop
  | findLock i best _ => i < n ∧ Suitable n d best
  | findUnlock i best size _ => i < n ∧ (d.pollSets i).size ≤ size ∧ Suitable n d best
  | addLock j _ => j < n ∧ (d.pollSets j).size < clientsPerThread
  | addUnlockFull _ _ => False
  | _ => True

variable {n : ℕ} {d d' : Data}

lemma findNext_facts {i : ℕ} {best : Option (ℕ × ℕ)} {connfd : ℤ} (h : Suitable n d best) :
    (findNext n i best connfd).Facts n d := by
  simp only [findNext]
  split_ifs with hi
  · exact ⟨hi, h⟩
  · cases best with
    | none => trivial
    | some x =>
      obtain ⟨hj, hle, hlt⟩ := h x.1 x.2 rfl
      exact ⟨hj, hle.trans_lt hlt⟩

lemma suitable_none : Suitable n d none := by
  intro j size h
  cases h

lemma Suitable.better {best : Option (ℕ × ℕ)} {i size : ℕ} (h : Suitable n d best) (hi : i < n)
    (hs : (d.pollSets i).size ≤ size) : Suitable n d (better best i size) := by
  have hnew : size < clientsPerThread → Suitable n d (some (i, size)) := by
    intro hlt j m he
    cases he
    exact ⟨hi, hs, hlt⟩
  simp only [Reservation.better]
  split_ifs with hlt
  · cases best with
    | none => exact hnew hlt
    | some x =>
      simp only
      split_ifs
      · exact hnew hlt
      · exact h
  · exact h

lemma mainCode_facts {o : Oracle} {p p' : MainPoint} (h : mainCode n o d p = .next (d', p'))
    (hp : p.Facts n d) : p'.Facts n d' := by
  cases p with
  | accepting =>
    simp only [mainCode] at h
    split at h <;> cases h
    exact findNext_facts suitable_none
  | findLock i best connfd =>
    cases h
    exact ⟨hp.1, le_rfl, hp.2⟩
  | findUnlock i best size connfd =>
    cases h
    exact findNext_facts (hp.2.2.better hp.1 hp.2.1)
  | spin connfd =>
    cases h
    exact findNext_facts suitable_none
  | addLock j connfd =>
    simp only [mainCode] at h
    split at h <;> cases h
    · exact absurd hp.2 (by omega)
    · trivial
  | addUnlockFull j connfd => exact hp.elim
  | addUnlock j connfd =>
    cases h
    trivial

lemma NetStep.size_le {w : ℕ} {pc pc' : Pc} (h : NetStep w d d' pc pc') (v : ℕ) :
    (d'.pollSets v).size ≤ (d.pollSets v).size := by
  by_cases hv : v = w
  · subst v
    cases h with
    | same hp => rw [hp]
    | active _ _ hp | close _ hp =>
      rw [hp, pollSets_setActiveUser]
      rfl
    | swap _ hp =>
      rw [hp, pollSets_setPollSet]
      exact Nat.sub_le _ _
  · rw [h.pollSets_ne hv]

lemma MainPoint.Facts.mono {p : MainPoint} (hp : p.Facts n d)
    (h : ∀ v, (d'.pollSets v).size ≤ (d.pollSets v).size) : p.Facts n d' := by
  have hs : ∀ {best}, Suitable n d best → Suitable n d' best := by
    intro best hb j size he
    obtain ⟨hj, hle, hlt⟩ := hb j size he
    exact ⟨hj, (h j).trans hle, hlt⟩
  cases p with
  | findLock i best connfd => exact ⟨hp.1, hs hp.2⟩
  | findUnlock i best size connfd => exact ⟨hp.1, (h i).trans hp.2.1, hs hp.2.2⟩
  | addLock j connfd => exact ⟨hp.1, (h j).trans_lt hp.2⟩
  | _ => exact hp

lemma Reachable.mainFacts {s : Server C} (hs : Reachable C s) :
    ∃ p, s.pc .main = .main p ∧ p.Facts C.nCores s.data := by
  refine Program.Reachable.invariant
    (fun a : Server C => ∃ p, a.pc .main = .main p ∧ p.Facts C.nCores a.data) hs
    ⟨.accepting, rfl, trivial⟩ fun a b t o hr ⟨p, hp, hf⟩ he => ?_
  cases t with
  | main =>
    obtain ⟨_, d', pc', hc, rfl⟩ := Program.step_next he
    simp only [server, hp] at hc
    split at hc <;> cases hc
    rename_i p' hm
    exact ⟨p', by simp, mainCode_facts hm hf⟩
  | worker w =>
    obtain ⟨d', pc', hc, rfl, hpc⟩ := worker_step he
    refine ⟨p, ?_, hf.mono ((workerCode_step hc).net ((Reachable.local hr).facts w)).size_le⟩
    rw [Program.step_pc_ne he (by simp), hp]

end Accepting

end SystemsLab.Reservation
