import SystemsLab.Reservation.Shutdown

namespace SystemsLab.Reservation

open CLib Threads Function

section Accounted

variable {C : Config} {s s' : Server C} {w : Fin C.nCores} {o : Oracle} {d d' : Data} {pc pc' : Pc}
  {i : ℕ} {fd : ℤ}

def Accounted (s : Server C) : Prop :=
  ∀ fd, s.data.opened fd = true → C.reserved fd = true ∨ (∃ w i, Live s w i ∧ fdAt s w i = fd) ∨
    (s.pc .main).inHand = some fd

lemma NetStep.still_listed {w : ℕ} (h : NetStep w d d' pc pc') (hi : i < (d.pollSets w).size)
    (hci : pc.closed ≠ some i) (ho : d'.opened ((d.pollSets w).fd i) = true) :
    ∃ j, j < (d'.pollSets w).size ∧ pc'.closed ≠ some j ∧
      (d'.pollSets w).fd j = (d.pollSets w).fd i := by
  cases h with
  | same hp _ _ hc' =>
    refine ⟨i, ?_, by simp [hc'], ?_⟩
    · rwa [hp]
    · rw [hp]
  | active _ _ hp _ _ hc' =>
    refine ⟨i, ?_, by simp [hc'], ?_⟩
    · rwa [hp, pollSets_setActiveUser]
    · rw [hp, pollSets_setActiveUser]
      rfl
  | @close fd rest i₀ hs hp hopened =>
    have hne : i₀ ≠ i := by
      rintro rfl
      rw [hopened, hs.2.2, update_self] at ho
      cases ho
    refine ⟨i, ?_, by simpa [Pc.closed] using hne, ?_⟩
    · rwa [hp, pollSets_setActiveUser]
    · rw [hp, pollSets_setActiveUser]
      rfl
  | swap hs hp hopened =>
    obtain ⟨j, hj, hclosed, hfd, -⟩ := (NetStep.swap hs hp hopened).keeps hi hci (.inl (by rintro ⟨⟩))
    exact ⟨j, hj, hclosed, hfd⟩

lemma Accounted.worker (h : Accounted s) (hl : Local C s)
    (hstep : (server C).step s (.worker w) o = .next s') : Accounted s' := by
  intro fd hfd
  have hmain : s'.pc .main = s.pc .main := Program.step_pc_ne hstep (by simp)
  have hother : ∀ v, v ≠ w → s'.data.pollSets v = s.data.pollSets v ∧
      s'.pc (.worker v) = s.pc (.worker v) := fun v hv => worker_other hl hstep hv
  obtain ⟨d', pc', hcode, rfl, hpc⟩ := worker_step hstep
  have hnet := (workerCode_step hcode).net (hl.facts w)
  have hold : s.data.opened fd = true := by
    rcases hnet.opened with ho | ⟨i, fd₀, -, -, -, ho⟩
    · rwa [ho] at hfd
    · rw [ho] at hfd
      by_cases he : fd = fd₀
      · rw [he, update_self] at hfd
        cases hfd
      · rwa [update_of_ne he] at hfd
  rcases h fd hold with hres | ⟨v, i, hi, hat⟩ | hhand
  · exact .inl hres
  · refine .inr (.inl ?_)
    by_cases hv : v = w
    · subst hv
      have hw : s'.pc (.worker v) = pc' := by rw [hpc, update_self]
      rw [← hat] at hfd
      obtain ⟨j, hj, hclosed, hjfd⟩ := hnet.still_listed hi.1 hi.2 hfd
      exact ⟨v, j, ⟨hj, by rwa [hw]⟩, hjfd.trans hat⟩
    · obtain ⟨hset, hsame⟩ := hother v hv
      refine ⟨v, i, ?_, ?_⟩
      · rw [Live, hset, hsame]
        exact hi
      · rw [fdAt, hset]
        exact hat
  · exact .inr (.inr (by rwa [hmain]))

lemma Accounted.main (h : Accounted s) (hr : Reachable C s)
    (hstep : (server C).step s .main o = .next s') : Accounted s' := by
  intro fd hfd
  have hkeeps : ∀ {v i}, Live s v i → fdAt s v i = fd → ∃ w j, Live s' w j ∧ fdAt s' w j = fd := by
    intro v i hi hat
    obtain ⟨hi', hfd', -⟩ := main_keeps hstep hi
    exact ⟨v, i, hi', hfd'.trans hat⟩
  have hpcs : ∀ v, s'.pc (.worker v) = s.pc (.worker v) := main_pc hstep
  obtain ⟨p₀, hp₀, hfacts⟩ := Reachable.mainFacts hr
  obtain ⟨p, d', p', hp, hm, rfl, hpc⟩ := main_step hstep
  obtain rfl : p₀ = p := by simpa [hp₀] using hp
  have hhand' : (s'.pc .main).inHand = p'.inHand := by
    rw [hpc, update_self]
    rfl
  have hhand : (s.pc .main).inHand = p₀.inHand := by
    rw [hp₀]
    rfl
  rw [hhand']
  have hlisted : s.data.opened fd = true → p₀.inHand ≠ some fd → C.reserved fd = true ∨
      (∃ w j, Live s' w j ∧ fdAt s' w j = fd) ∨ p'.inHand = some fd := by
    intro ho hne
    rcases h fd ho with hres | ⟨v, i, hi, hat⟩ | hin
    · exact .inl hres
    · exact .inr (.inl (hkeeps hi hat))
    · exact absurd (hhand.symm.trans hin) hne
  cases hm with
  | @accept connfd _ hfree hd hin =>
    by_cases he : fd = connfd
    · rw [he]
      exact .inr (.inr hin)
    · have ho : s'.data.opened = update s.data.opened connfd true := congrArg Data.opened hd
      rw [ho, update_of_ne he] at hfd
      exact hlisted hfd (by rintro ⟨⟩)
  | pass hd hin =>
    rw [hd] at hfd
    by_cases hne : p₀.inHand = some fd
    · exact .inr (.inr (hin.trans hne))
    · exact hlisted hfd hne
  | @give j connfd hlt hd =>
    rw [hd] at hfd
    by_cases he : fd = connfd
    · have hset : s'.data.pollSets j = (s.data.pollSets j).add connfd := by
        rw [hd]
        exact pollSets_setPollSet ..
      refine .inr (.inl ⟨⟨j, hfacts.1⟩, (s.data.pollSets j).size, ⟨?_, fun hclosed => ?_⟩, ?_⟩)
      · rw [hset]
        exact Nat.lt_succ_self _
      · rw [hpcs] at hclosed
        have hslot := closed_slot ((Reachable.local hr).facts ⟨j, hfacts.1⟩) hclosed
        exact absurd hslot.2 (lt_irrefl _)
      · rw [fdAt, hset, he]
        exact update_self ..
    · exact hlisted hfd fun hin => he (Option.some.inj hin).symm
  | @drop j connfd hd =>
    have ho : s'.data.opened = update s.data.opened connfd false := congrArg Data.opened hd
    rw [ho] at hfd
    by_cases he : fd = connfd
    · rw [he, update_self] at hfd
      cases hfd
    · rw [update_of_ne he] at hfd
      exact hlisted hfd fun hin => he (Option.some.inj hin).symm

lemma Reachable.accounted (hs : Reachable C s) : Accounted s := by
  refine Program.Reachable.invariant Accounted hs (fun fd hfd => .inl hfd) fun a b t o hr ha he => ?_
  cases t with
  | main => exact ha.main hr he
  | worker w => exact ha.worker (Reachable.local hr) he

lemma WorkerStep.length_users {w : ℕ} (h : WorkerStep C w o d pc d' pc')
    (hpc : ∀ c, pc ≠ .handler c (.lockArray .login)) : d'.users.length = d.users.length := by
  cases h with
  | handler h =>
    cases h with
    | create => exact absurd rfl (hpc _)
    | verify | logout | newLockUser => exact List.length_modify ..
    | _ => rfl
  | remove h =>
    cases h with
    | unlockArray => exact List.length_modify ..
    | _ => rfl
  | _ => rfl

lemma lockArray_length {w : ℕ} {c : Call} {salt : Bytes}
    (h : c.handlerCode C w salt d (.lockArray .login) = .next (d', pc))
    (hle : d.users.length ≤ numUsers) : d'.users.length ≤ numUsers := by
  simp only [Call.handlerCode] at h
  split at h
  · cases h
    exact hle
  · split at h <;> cases h
    next users hadd =>
    simp only [addUser] at hadd
    split_ifs at hadd with hfull
    cases hadd
    rw [List.length_append]
    exact Nat.lt_of_not_le hfull

lemma Reachable.length_users_le (hs : Reachable C s) : s.data.users.length ≤ numUsers := by
  refine Program.Reachable.invariant (fun a : Server C => a.data.users.length ≤ numUsers) hs
    (Nat.zero_le _) fun a b t o _ hle he => ?_
  cases t with
  | main =>
    obtain ⟨p, d', p', _, hm, rfl, _⟩ := main_step he
    cases hm with
    | accept _ hd | pass hd | give _ hd | drop hd =>
      rw [hd]
      exact hle
  | worker w =>
    obtain ⟨d', pc', hcode, rfl, _⟩ := worker_step he
    by_cases hpc : ∃ c, a.pc (.worker w) = .handler c (.lockArray .login)
    · obtain ⟨c, hpc⟩ := hpc
      rw [hpc] at hcode
      exact lockArray_length (w := w) hcode hle
    · rw [(workerCode_step hcode).length_users fun c hc => hpc ⟨c, hc⟩]
      exact hle

end Accounted

namespace Resource

variable {C : Config}

def Own (s : Server C) (w : Fin C.nCores) : Resource → Prop
  | pipeIn v => v = w
  | descriptor fd => ∃ i, Live s w i ∧ fdAt s w i = fd
  | activeUser v j => v = w ∧ (s.data.activeUser v j).isSome = true
  | mutex m => m = .pollSet w
  | pollSet v => v = w
  | _ => False

def Shared (d : Data) : Resource → Prop
  | mutex .array => True
  | mutex (.user uid) => uid < numUsers
  | mutex (.seat i) => i < numSeats
  | userWhoBooked i => i < numSeats ∧ (d.seats i).userWhoBooked.isSome = true
  | username uid => uid < d.users.length
  | hashedPassword uid => uid < d.users.length
  | seats => True
  | listenfd => True
  | tidArr => True
  | pipeFds => True
  | dataArr => True
  | userMutex => True
  | userArray => True
  | _ => False

def UsedBy (s : Server C) (w : Fin C.nCores) (r : Resource) : Prop :=
  (r.Own s w ∧ ∀ v, r ≠ .pipeIn v) ∨ r.Shared s.data

end Resource

section Sets

variable {C : Config} {s : Server C} {d : Data} {w v : Fin C.nCores} {r : Resource} {i j k : ℕ}

lemma mem_slotReleased : r ∈ slotReleased d i j ↔ r = .descriptor ((d.pollSets i).fd j) ∨
    (r = .activeUser i j ∧ (d.activeUser i j).isSome = true) := by
  rw [slotReleased, List.mem_cons]
  split_ifs with h <;> simp [h]

lemma mem_slotsReleased : r ∈ slotsReleased d i j ↔ ∃ k, 0 < k ∧ k < j ∧ r ∈ slotReleased d i k := by
  simp only [slotsReleased, List.mem_flatMap, List.mem_range'_1]
  refine exists_congr fun k => ?_
  rw [← and_assoc]
  refine and_congr_left fun _ => ?_
  omega

lemma nodup_slotReleased : (slotReleased d i j).Nodup := by
  rw [slotReleased]
  split_ifs <;> simp

lemma slotReleased_inj (hinj : ∀ j < (d.pollSets i).size, ∀ k < (d.pollSets i).size,
    (d.pollSets i).fd j = (d.pollSets i).fd k → j = k) (hj : j < (d.pollSets i).size)
    (hk : k < (d.pollSets i).size) (hrj : r ∈ slotReleased d i j) (hrk : r ∈ slotReleased d i k) :
    j = k := by
  rcases mem_slotReleased.mp hrj with rfl | ⟨rfl, -⟩
  · rcases mem_slotReleased.mp hrk with h | ⟨h, -⟩
    · exact hinj j hj k hk (Resource.descriptor.inj h)
    · cases h
  · rcases mem_slotReleased.mp hrk with h | ⟨h, -⟩
    · cases h
    · exact (Resource.activeUser.inj h).2

lemma nodup_slotsReleased (hinj : ∀ j < (d.pollSets i).size, ∀ k < (d.pollSets i).size,
    (d.pollSets i).fd j = (d.pollSets i).fd k → j = k) (hj : j ≤ (d.pollSets i).size) :
    (slotsReleased d i j).Nodup := by
  induction j with
  | zero => exact List.nodup_nil
  | succ j ih =>
    by_cases hpos : 0 < j
    · rw [slotsReleased_succ hpos, List.nodup_append']
      refine ⟨ih (Nat.le_of_succ_le hj), nodup_slotReleased, fun r hr hrj => ?_⟩
      obtain ⟨k, -, hkj, hrk⟩ := mem_slotsReleased.mp hr
      exact hkj.ne (slotReleased_inj hinj (hkj.trans hj) hj hrk hrj)
    · obtain rfl : j = 0 := Nat.eq_zero_of_not_pos hpos
      exact List.nodup_nil

lemma slotsReleased_isPrefix (hj : 0 < j) (h : j ≤ k) : slotsReleased d i j <+: slotsReleased d i k := by
  induction k, h using Nat.le_induction with
  | base => exact List.prefix_rfl
  | succ k hle ih =>
    rw [slotsReleased_succ (hj.trans_le hle)]
    exact ih.trans (List.prefix_append _ _)

lemma live_iff (hclosed : (s.pc (.worker w)).closed = none) :
    Live s w i ↔ i < (s.data.pollSets w).size := by
  rw [Live, hclosed]
  exact and_iff_left (by rintro ⟨⟩)

lemma mem_setReleased (hpoll : PollOk C s.data w) (hclosed : (s.pc (.worker w)).closed = none) :
    r ∈ setReleased C s.data w ↔ r.Own s w := by
  have hslots : r ∈ slotsReleased s.data w (s.data.pollSets w).size ↔
      (∃ j, 0 < j ∧ j < (s.data.pollSets w).size ∧ r = .descriptor ((s.data.pollSets w).fd j)) ∨
        ∃ j, r = .activeUser w j ∧ (s.data.activeUser w j).isSome = true := by
    rw [mem_slotsReleased]
    constructor
    · rintro ⟨j, hpos, hlt, hr⟩
      rcases mem_slotReleased.mp hr with hr | hr
      · exact .inl ⟨j, hpos, hlt, hr⟩
      · exact .inr ⟨j, hr⟩
    · rintro (⟨j, hpos, hlt, hr⟩ | ⟨j, hr, hsome⟩)
      · exact ⟨j, hpos, hlt, mem_slotReleased.mpr (.inl hr)⟩
      · have hpos : 0 < j := by
          apply Nat.pos_of_ne_zero
          rintro rfl
          rw [hpoll.idlePipe] at hsome
          cases hsome
        have hlt : j < (s.data.pollSets w).size := by
          by_contra hge
          rw [hpoll.idle j (not_lt.mp hge)] at hsome
          cases hsome
        exact ⟨j, hpos, hlt, mem_slotReleased.mpr (.inr ⟨hr, hsome⟩)⟩
  rw [setReleased, List.mem_append, List.mem_append, hslots]
  cases r with
  | descriptor fd =>
    simp only [Resource.Own, live_iff hclosed, fdAt]
    constructor
    · rintro ((hr | ⟨j, -, hlt, hr⟩ | ⟨j, hr, -⟩) | hr)
      · have hfd : fd = C.pipeOut w := by simpa using hr
        exact ⟨0, hpoll.pos, hpoll.pipe.trans hfd.symm⟩
      · cases hr
        exact ⟨j, hlt, rfl⟩
      · cases hr
      · simp at hr
    · rintro ⟨j, hlt, rfl⟩
      by_cases hj : j = 0
      · rw [hj, hpoll.pipe]
        exact .inl (.inl (by simp))
      · exact .inl (.inr (.inl ⟨j, Nat.pos_of_ne_zero hj, hlt, rfl⟩))
  | activeUser u j =>
    simp only [Resource.Own]
    constructor
    · rintro ((hr | ⟨j, -, -, hr⟩ | ⟨j, hr, hsome⟩) | hr)
      · simp at hr
      · cases hr
      · cases hr
        exact ⟨rfl, hsome⟩
      · simp at hr
    · rintro ⟨rfl, hsome⟩
      exact .inl (.inr (.inr ⟨j, rfl, hsome⟩))
  | _ => simp [Resource.Own]

lemma own_unique (hk : Connected s) (hw : r.Own s w) (hv : r.Own s v) : w = v := by
  cases r with
  | descriptor fd =>
    obtain ⟨i, hi, hfi⟩ := hw
    obtain ⟨j, hj, hfj⟩ := hv
    exact (hk.distinct hi hj (hfi.trans hfj.symm)).1
  | activeUser u j => exact Fin.ext (hw.1.symm.trans hv.1)
  | mutex m =>
    have hmutex : Mutex.pollSet w = .pollSet v := Eq.trans (Eq.symm hw) hv
    exact Fin.ext (Mutex.pollSet.inj hmutex)
  | pipeIn u | pollSet u => exact Fin.ext (Eq.trans (Eq.symm hw) hv)
  | _ => exact hw.elim

lemma not_shared_of_own (h : r.Own s w) : ¬ r.Shared d := by
  cases r with
  | mutex m =>
    obtain rfl : m = .pollSet w := h
    exact id
  | pipeIn | descriptor | activeUser | pollSet => exact id
  | _ => exact h.elim

lemma nodup_setReleased (hk : Connected s) (hpoll : PollOk C s.data w)
    (hclosed : (s.pc (.worker w)).closed = none) : (setReleased C s.data w).Nodup := by
  have hinj : ∀ j < (s.data.pollSets w).size, ∀ k < (s.data.pollSets w).size,
      (s.data.pollSets w).fd j = (s.data.pollSets w).fd k → j = k :=
    fun j hj k hk' he => (hk.distinct ((live_iff hclosed).mpr hj) ((live_iff hclosed).mpr hk') he).2
  have hslots := nodup_slotsReleased hinj le_rfl
  have hkinds : ∀ r ∈ slotsReleased s.data w (s.data.pollSets w).size,
      r ≠ .pipeIn w ∧ r ≠ .descriptor (C.pipeOut w) ∧ r ≠ .mutex (.pollSet w) ∧ r ≠ .pollSet w := by
    intro r hr
    obtain ⟨k, hpos, hlt, hrk⟩ := mem_slotsReleased.mp hr
    rcases mem_slotReleased.mp hrk with rfl | ⟨rfl, -⟩
    · refine ⟨by rintro ⟨⟩, fun he => ?_, by rintro ⟨⟩, by rintro ⟨⟩⟩
      have hfd : (s.data.pollSets w).fd k = (s.data.pollSets w).fd 0 :=
        (Resource.descriptor.inj he).trans hpoll.pipe.symm
      exact hpos.ne' (hinj k hlt 0 hpoll.pos hfd)
    · exact ⟨by rintro ⟨⟩, by rintro ⟨⟩, by rintro ⟨⟩, by rintro ⟨⟩⟩
  rw [setReleased, List.nodup_append', List.nodup_append']
  refine ⟨⟨by simp, hslots, fun r hr hslot => ?_⟩, by simp, fun r hr hend => ?_⟩
  · obtain ⟨hpipe, hfd, -, -⟩ := hkinds r hslot
    rcases List.mem_pair.mp hr with rfl | rfl
    · exact hpipe rfl
    · exact hfd rfl
  · rcases List.mem_append.mp hr with hr | hr
    · rcases List.mem_pair.mp hr with rfl | rfl <;> simp at hend
    · obtain ⟨-, -, hmutex, hset⟩ := hkinds r hr
      rcases List.mem_pair.mp hend with rfl | rfl
      · exact hmutex rfl
      · exact hset rfl

lemma mem_setsReleased (hpoll : ∀ w, PollOk C s.data w) (hi : i ≤ C.nCores)
    (hclosed : ∀ w : Fin C.nCores, (w : ℕ) < i → (s.pc (.worker w)).closed = none) :
    r ∈ setsReleased C s.data i ↔ ∃ w : Fin C.nCores, (w : ℕ) < i ∧ r.Own s w := by
  rw [setsReleased, List.mem_flatMap]
  constructor
  · rintro ⟨k, hk, hr⟩
    have hlt := List.mem_range.mp hk
    let w : Fin C.nCores := ⟨k, hlt.trans_le hi⟩
    exact ⟨w, hlt, (mem_setReleased (hpoll k) (hclosed w hlt)).mp hr⟩
  · rintro ⟨w, hw, hr⟩
    exact ⟨w, List.mem_range.mpr hw, (mem_setReleased (hpoll w) (hclosed w hw)).mpr hr⟩

lemma nodup_setsReleased (hk : Connected s) (hpoll : ∀ w, PollOk C s.data w) (hi : i ≤ C.nCores)
    (hclosed : ∀ w : Fin C.nCores, (w : ℕ) < i → (s.pc (.worker w)).closed = none) :
    (setsReleased C s.data i).Nodup := by
  induction i with
  | zero => exact List.nodup_nil
  | succ i ih =>
    have hbefore : ∀ w : Fin C.nCores, (w : ℕ) < i → (s.pc (.worker w)).closed = none :=
      fun w hw => hclosed w (Nat.lt_succ_of_lt hw)
    let w : Fin C.nCores := ⟨i, hi⟩
    have hw := hclosed w (Nat.lt_succ_self i)
    rw [setsReleased_succ, List.nodup_append']
    refine ⟨ih (Nat.le_of_succ_le hi) hbefore, nodup_setReleased hk (hpoll w) hw, fun r hr hset => ?_⟩
    obtain ⟨v, hv, hown⟩ := (mem_setsReleased hpoll (Nat.le_of_succ_le hi) hbefore).mp hr
    have hsame := own_unique hk hown ((mem_setReleased (hpoll w) hw).mp hset)
    exact absurd hv (by rw [hsame]; exact lt_irrefl i)

end Sets

section SharedData

variable {d : Data} {r : Resource} {i j : ℕ}

lemma nodup_flatMap_range {n : ℕ} {f : ℕ → List Resource} (hf : ∀ i, (f i).Nodup)
    (hinj : ∀ i j r, r ∈ f i → r ∈ f j → i = j) : ((List.range n).flatMap f).Nodup := by
  rw [List.nodup_flatMap]
  exact ⟨fun i _ => hf i, List.nodup_range.imp fun hne r hi hj => hne (hinj _ _ r hi hj)⟩

lemma mem_seatReleased : r ∈ seatReleased d i ↔ r = .mutex (.seat i) ∨
    (r = .userWhoBooked i ∧ (d.seats i).userWhoBooked.isSome = true) := by
  rw [seatReleased, List.mem_cons]
  split_ifs with h <;> simp [h]

lemma mem_userReleased : r ∈ userReleased d i ↔ r = .mutex (.user i) ∨
    ((r = .username i ∨ r = .hashedPassword i) ∧ i < d.users.length) := by
  rw [userReleased]
  split_ifs with h
  · simp only [List.mem_cons, List.not_mem_nil, or_false, h, and_true]
    tauto
  · simp [h]

lemma mem_sharedReleased (hle : d.users.length ≤ numUsers) : r ∈ sharedReleased d ↔ r.Shared d := by
  have hseats : r ∈ (List.range numSeats).flatMap (seatReleased d) ↔
      ∃ i < numSeats, r ∈ seatReleased d i := by
    simp only [List.mem_flatMap, List.mem_range]
  have husers : r ∈ (List.range numUsers).flatMap (userReleased d) ↔
      ∃ i < numUsers, r ∈ userReleased d i := by
    simp only [List.mem_flatMap, List.mem_range]
  rw [sharedReleased, freeUsers, List.mem_append, List.mem_append, List.mem_append, hseats, husers]
  simp only [mem_seatReleased, mem_userReleased]
  cases r with
  | mutex m => cases m <;> simp [Resource.Shared]
  | userWhoBooked i => simp [Resource.Shared]
  | username i =>
    simp [Resource.Shared]
    exact fun h => h.trans_le hle
  | hashedPassword i =>
    simp [Resource.Shared]
    exact fun h => h.trans_le hle
  | _ => simp [Resource.Shared]

lemma nodup_sharedReleased (d : Data) : (sharedReleased d).Nodup := by
  have hseats : ((List.range numSeats).flatMap (seatReleased d)).Nodup := by
    apply nodup_flatMap_range
    · intro i
      rw [seatReleased]
      split_ifs <;> simp
    · intro i j r hi hj
      rcases mem_seatReleased.mp hi with rfl | ⟨rfl, -⟩
      · simpa [mem_seatReleased] using hj
      · have hsame := mem_seatReleased.mp hj
        simp at hsame
        exact hsame.1
  have husers : ((List.range numUsers).flatMap (userReleased d)).Nodup := by
    apply nodup_flatMap_range
    · intro i
      rw [userReleased]
      split_ifs <;> simp
    · intro i j r hi hj
      rcases mem_userReleased.mp hi with rfl | ⟨rfl | rfl, -⟩
      · simpa [mem_userReleased] using hj
      · have hsame := mem_userReleased.mp hj
        simp at hsame
        exact hsame.1
      · have hsame := mem_userReleased.mp hj
        simp at hsame
        exact hsame.1
  have huser : ∀ r ∈ (List.range numUsers).flatMap (userReleased d),
      (∃ i, r = .mutex (.user i)) ∨ (∃ i, r = .username i) ∨ ∃ i, r = .hashedPassword i := by
    intro r hr
    obtain ⟨i, -, hi⟩ := List.mem_flatMap.mp hr
    rcases mem_userReleased.mp hi with rfl | ⟨rfl | rfl, -⟩
    · exact .inl ⟨i, rfl⟩
    · exact .inr (.inl ⟨i, rfl⟩)
    · exact .inr (.inr ⟨i, rfl⟩)
  rw [sharedReleased, freeUsers, List.nodup_append', List.nodup_append', List.nodup_append']
  refine ⟨hseats, ⟨by simp, ⟨husers, by simp, fun r hr hend => ?_⟩, fun r hr hend => ?_⟩,
    fun r hr hend => ?_⟩
  · rcases huser r hr with ⟨i, rfl⟩ | ⟨i, rfl⟩ | ⟨i, rfl⟩ <;> simp at hend
  · rcases List.mem_append.mp hend with hend | hend
    · rcases huser r hend with ⟨i, rfl⟩ | ⟨i, rfl⟩ | ⟨i, rfl⟩ <;> simp at hr
    · exact (by simp : List.Disjoint [Resource.seats, .listenfd, .tidArr, .pipeFds, .dataArr]
        [.userMutex, .userArray, .mutex .array]) hr hend
  · obtain ⟨i, -, hi⟩ := List.mem_flatMap.mp hr
    rw [List.mem_append, List.mem_append] at hend
    rcases mem_seatReleased.mp hi with rfl | ⟨rfl, -⟩
    · rcases hend with hend | hend | hend
      · simp at hend
      · rcases huser _ hend with ⟨_, h⟩ | ⟨_, h⟩ | ⟨_, h⟩ <;> cases h
      · simp at hend
    · rcases hend with hend | hend | hend
      · simp at hend
      · rcases huser _ hend with ⟨_, h⟩ | ⟨_, h⟩ | ⟨_, h⟩ <;> cases h
      · simp at hend

end SharedData

lemma Pc.Resting.held {pc : Pc} (h : pc.Resting) (w : ℕ) : pc.held w = ∅ := by
  cases pc with
  | top | serve => rfl
  | _ => exact h.elim

lemma pollSet_of_held {pc : Pc} {v w : ℕ} (h : Mutex.pollSet v ∈ pc.held w) : v = w := by
  cases pc with
  | handler c p => cases p <;> simp [Pc.held, Point.held] at h
  | remove fd rest p => cases p <;> simp [Pc.held, RemovePoint.held] at h <;> exact h
  | snapped | found => exact Mutex.pollSet.inj h
  | _ => exact h.elim

namespace Process

variable {C : Config} {s : Process C} {r : Resource} {w : Fin C.nCores} {i : ℕ}

namespace Sound

lemma closed_none (hs : s.Sound) (hw : s.ended w = true) :
    (s.threads.pc (.worker w)).closed = none := by
  have hrest := hs.resting w hw
  cases hpc : s.threads.pc (.worker w) with
  | top | serve => rfl
  | _ =>
    rw [hpc] at hrest
    exact hrest.elim

lemma closed_of_joined (hs : s.Sound) (hi : i ≤ s.cleanup.joined C.nCores) (hw : (w : ℕ) < i) :
    (s.threads.pc (.worker w)).closed = none :=
  hs.closed_none (hs.joined w (hw.trans_le hi))

lemma released_eq (hs : s.Sound) :
    (∃ i ≤ C.nCores, i ≤ s.cleanup.joined C.nCores ∧ s.released <+: setsReleased C s.threads.data i) ∨
      (∃ i < C.nCores, i ≤ s.cleanup.joined C.nCores ∧
        s.released = setsReleased C s.threads.data i ++ [.pipeIn i]) ∨
      (s.cleanup = .returned ∧
        s.released = setsReleased C s.threads.data C.nCores ++ sharedReleased s.threads.data) := by
  have hplaced := hs.placed
  have hreleased := hs.released
  cases hc : s.cleanup with
  | looping =>
    rw [hc] at hreleased
    exact .inl ⟨0, Nat.zero_le _, Nat.zero_le _, hreleased ▸ List.nil_prefix⟩
  | notify i | closeWrite i =>
    rw [hc] at hplaced hreleased
    exact .inl ⟨i, Nat.le_of_lt hplaced, le_rfl, hreleased ▸ List.prefix_rfl⟩
  | join i =>
    rw [hc] at hplaced hreleased
    exact .inr (.inl ⟨i, hplaced.1, le_rfl, hreleased⟩)
  | closeRead i =>
    rw [hc] at hplaced hreleased
    exact .inr (.inl ⟨i, hplaced, Nat.le_succ i, hreleased⟩)
  | closeSlot i j =>
    rw [hc] at hplaced hreleased
    obtain ⟨hi, hj, hle⟩ := hplaced
    refine .inl ⟨i + 1, hi, le_rfl, ?_⟩
    rw [hreleased, Cleanup.sofar, setsReleased_succ, List.prefix_append_right_inj, setReleased,
      List.append_assoc, List.prefix_append_right_inj]
    exact (slotsReleased_isPrefix hj hle).trans (List.prefix_append _ _)
  | freeShared =>
    rw [hc] at hreleased
    exact .inl ⟨C.nCores, le_rfl, le_rfl, hreleased ▸ List.prefix_rfl⟩
  | returned =>
    rw [hc] at hreleased
    exact .inr (.inr ⟨rfl, hreleased⟩)

lemma nodup (hs : s.Sound) : s.released.Nodup := by
  have hk := Reachable.connected hs.reachable
  have hpoll := fun w => (Reachable.local hs.reachable).poll w
  rcases hs.released_eq with ⟨i, hi, hj, hr⟩ | ⟨i, hi, hj, hr⟩ | ⟨hc, hr⟩
  · exact (nodup_setsReleased hk hpoll hi fun w => hs.closed_of_joined hj).sublist hr.sublist
  · have hclosed : ∀ w : Fin C.nCores, (w : ℕ) < i → (s.threads.pc (.worker w)).closed = none :=
      fun w => hs.closed_of_joined hj
    rw [hr, List.nodup_append']
    refine ⟨nodup_setsReleased hk hpoll hi.le hclosed, List.nodup_singleton _, fun r hr hpipe => ?_⟩
    obtain ⟨w, hw, hown⟩ := (mem_setsReleased hpoll hi.le hclosed).mp hr
    obtain rfl := List.mem_singleton.mp hpipe
    have hiw : i = w := hown
    exact hw.ne' hiw
  · have hclosed : ∀ w : Fin C.nCores, (w : ℕ) < C.nCores → (s.threads.pc (.worker w)).closed = none :=
      fun w => hs.closed_of_joined (by rw [hc]; exact le_rfl)
    rw [hr, List.nodup_append']
    refine ⟨nodup_setsReleased hk hpoll le_rfl hclosed, nodup_sharedReleased _, fun r hr hshared => ?_⟩
    obtain ⟨w, hw, hown⟩ := (mem_setsReleased hpoll le_rfl hclosed).mp hr
    have hle := Reachable.length_users_le hs.reachable
    exact not_shared_of_own hown ((mem_sharedReleased hle).mp hshared)

lemma of_released (hs : s.Sound) (hr : r ∈ s.released) :
    (∃ w : Fin C.nCores, s.ended w = true ∧ r.Own s.threads w) ∨
      (∃ w : Fin C.nCores, r = .pipeIn w) ∨
      ((∀ w : Fin C.nCores, s.ended w = true) ∧ r.Shared s.threads.data) := by
  have hpoll := fun w => (Reachable.local hs.reachable).poll w
  have hsets : ∀ i ≤ C.nCores, i ≤ s.cleanup.joined C.nCores → r ∈ setsReleased C s.threads.data i →
      ∃ w : Fin C.nCores, s.ended w = true ∧ r.Own s.threads w := by
    intro i hi hj hr
    obtain ⟨w, hw, hown⟩ := (mem_setsReleased hpoll hi fun w => hs.closed_of_joined hj).mp hr
    exact ⟨w, hs.joined w (hw.trans_le hj), hown⟩
  rcases hs.released_eq with ⟨i, hi, hj, hall⟩ | ⟨i, hi, hj, hall⟩ | ⟨hc, hall⟩
  · exact .inl (hsets i hi hj (hall.subset hr))
  · rw [hall] at hr
    rcases List.mem_append.mp hr with hr | hr
    · exact .inl (hsets i hi.le hj hr)
    · exact .inr (.inl ⟨⟨i, hi⟩, List.mem_singleton.mp hr⟩)
  · have hjoined : C.nCores ≤ s.cleanup.joined C.nCores := by
      rw [hc]
      exact le_rfl
    rw [hall] at hr
    rcases List.mem_append.mp hr with hr | hr
    · exact .inl (hsets C.nCores le_rfl hjoined hr)
    · refine .inr (.inr ⟨fun w => hs.joined w (w.isLt.trans_le hjoined), ?_⟩)
      exact (mem_sharedReleased (Reachable.length_users_le hs.reachable)).mp hr

lemma main_accepting (hs : s.Sound) (hr : r ∈ s.released) :
    s.threads.pc .main = .main .accepting := by
  apply (hs.stopping fun hc => ?_).2
  rw [hs.released, hc] at hr
  exact List.not_mem_nil hr

lemma owner_eq_none (hs : s.Sound) {m : Mutex} (hm : .mutex m ∈ s.released) :
    s.threads.owner m = none := by
  cases howner : s.threads.owner m with
  | none => rfl
  | some t =>
    have hin : m ∈ held t (s.threads.pc t) := ((Reachable.owns hs.reachable) m t).mp howner
    have hended : ∀ w : Fin C.nCores, t = .worker w → s.ended w ≠ true := by
      rintro w rfl hw
      rw [held, (hs.resting w hw).held] at hin
      exact hin
    cases t with
    | main =>
      rw [hs.main_accepting hm] at hin
      exact hin.elim
    | worker v =>
      rcases hs.of_released hm with ⟨w, hw, hown⟩ | ⟨w, h⟩ | ⟨hall, -⟩
      · obtain rfl : m = .pollSet w := hown
        obtain rfl : w = v := Fin.ext (pollSet_of_held hin)
        exact absurd hw (hended w rfl)
      · cases h
      · exact absurd (hall v) (hended v rfl)

lemma ended_of_usedBy (hs : s.Sound) (hr : r ∈ s.released) (hused : r.UsedBy s.threads w) :
    s.ended w = true := by
  rcases hs.of_released hr with ⟨v, hv, hown⟩ | ⟨v, rfl⟩ | ⟨hall, -⟩
  · rcases hused with ⟨hw, -⟩ | hshared
    · rwa [own_unique (Reachable.connected hs.reachable) hw hown]
    · exact absurd hshared (not_shared_of_own hown)
  · rcases hused with ⟨-, hne⟩ | hshared
    · exact absurd rfl (hne v)
    · exact hshared.elim
  · exact hall w

lemma released_of_returned (hs : s.Sound) (hc : s.cleanup = .returned) :
    r ∈ s.released ↔ (∃ w, r.Own s.threads w) ∨ r.Shared s.threads.data := by
  have hclosed : ∀ w : Fin C.nCores, (w : ℕ) < C.nCores → (s.threads.pc (.worker w)).closed = none :=
    fun w => hs.closed_of_joined (by rw [hc]; exact le_rfl)
  rw [hs.released, hc, Cleanup.sofar, List.mem_append,
    mem_setsReleased (fun w => (Reachable.local hs.reachable).poll w) le_rfl hclosed,
    mem_sharedReleased (Reachable.length_users_le hs.reachable)]
  exact or_congr_left (exists_congr fun w => and_iff_right w.isLt)

end Sound

theorem released_once (s : Process C) (hs : s.Reached) :
    s.released.Nodup ∧
      (∀ r ∈ s.released, (∃ w, r.Own s.threads w) ∨ r.Shared s.threads.data) ∧
      (∀ r ∈ s.released, ∀ w, r.UsedBy s.threads w → s.ended w = true) ∧
      (∀ m, .mutex m ∈ s.released → s.threads.owner m = none) ∧
      (s.cleanup = .returned →
        (∀ r, (∃ w, r.Own s.threads w) ∨ r.Shared s.threads.data → r ∈ s.released) ∧
          ∀ fd, s.threads.data.opened fd = true → C.reserved fd = false →
            .descriptor fd ∈ s.released) := by
  have hsound := hs.sound
  refine ⟨hsound.nodup, fun r hr => ?_, fun r hr w => hsound.ended_of_usedBy hr,
    fun m => hsound.owner_eq_none, fun hc => ?_⟩
  · rcases hsound.of_released hr with ⟨w, -, hown⟩ | ⟨w, rfl⟩ | ⟨-, hshared⟩
    · exact .inl ⟨w, hown⟩
    · exact .inl ⟨w, rfl⟩
    · exact .inr hshared
  · refine ⟨fun r hr => (hsound.released_of_returned hc).mpr hr, fun fd hfd hres => ?_⟩
    rcases Reachable.accounted hsound.reachable fd hfd with hr | ⟨w, i, hi, hat⟩ | hhand
    · rw [hres] at hr
      cases hr
    · exact (hsound.released_of_returned hc).mpr (.inl ⟨w, i, hi, hat⟩)
    · rw [(hsound.stopping (by rw [hc]; rintro ⟨⟩)).2] at hhand
      cases hhand

def interrupted : List (Actor 1 × Oracle) :=
  List.replicate 6 (.thread .main, anyOracle) ++ [(.sigint, anyOracle)] ++
    List.replicate 3 (.thread .main, anyOracle) ++ [(.thread (.worker ⟨0, Nat.one_pos⟩), anyOracle)] ++
    List.replicate 5 (.thread .main, anyOracle)

theorem released_once_client : ∃ s : Process oneCore, s.cleanup = .returned ∧ s.released.Nodup ∧
    .descriptor 7 ∈ s.released := by
  have hrun : ∃ s, follow turn (start oneCore) interrupted = some s ∧ s.cleanup = .returned ∧
      s.threads.data.opened 7 = true := ⟨_, rfl, rfl, rfl⟩
  obtain ⟨s, hs, hreturned, hopened⟩ := hrun
  obtain ⟨hnodup, -, -, -, hall⟩ := released_once s ⟨interrupted, hs⟩
  exact ⟨s, hreturned, hnodup, (hall hreturned).2 7 hopened rfl⟩

end Process

end SystemsLab.Reservation
