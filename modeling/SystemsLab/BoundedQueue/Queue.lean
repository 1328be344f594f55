import SystemsLab.CLib.Bytes
import SystemsLab.Threads.Monitors
import Mathlib.Data.Nat.ModEq
import Mathlib.Tactic.FinCases
import Mathlib.Data.Fintype.Prod
import Mathlib.Data.List.Basic

/-! The bounded queue of `week13/w13.c`: a circular array as a monitor, and the channel that it is. -/

namespace SystemsLab.BoundedQueue

open CLib Threads

/-- `queue_t`, without its lock and conditions. The block that it lies in has `cells` cells for `data`,
and `outside` tells whether a cell behind the block has been used. -/
structure Queue where
  putIndex : ℕ
  getIndex : ℕ
  length : ℕ
  capacity : ℕ
  totalNIterations : ℕ
  data : ℕ → UInt64
  cells : ℕ
  outside : Bool

/-- `sizeof(queue_t)`. -/
def headerSize : UInt64 := 176

/-- The argument of `malloc`, in `size_t`. -/
def blockSize (capacity : UInt64) : UInt64 := headerSize + 8 * capacity

inductive Failure where
  | exit (message : Bytes)
  | outside

/-- `malloc` answers with what is in the memory. -/
def qinit (totalNIterations capacity : UInt64) (malloc : UInt64 → Option (ℕ → UInt64)) :
    Except Failure Queue :=
  if capacity = 0 then .error (.exit (ascii "capacity must be greater than 0\n"))
  else if totalNIterations = 0 then .error (.exit (ascii "total_n_iterations must be greater than 0\n"))
  else
    match malloc (blockSize capacity) with
    | none => .error (.exit (ascii "Failed to allocate memory for queue\n"))
    | some garbage =>
      -- A block that does not hold the header is written behind its end here.
      if blockSize capacity < headerSize then .error .outside
      else .ok ⟨0, 0, 0, capacity.toNat, totalNIterations.toNat, garbage,
        (blockSize capacity - headerSize).toNat / 8, false⟩

/-- `put_data` from taking the lock, or from waking up, to the next wait or to the end. -/
def putData (queue : Queue) (data : UInt64) : Option Queue :=
  if queue.length = queue.capacity then none
  else some { queue with
    data := Function.update queue.data queue.putIndex data
    outside := queue.outside || decide (queue.cells ≤ queue.putIndex)
    putIndex := (queue.putIndex + 1) % queue.capacity
    length := queue.length + 1 }

/-- `get_data`, likewise. -/
def getData (queue : Queue) : Option (Queue × UInt64) :=
  if queue.length = 0 then none
  else
    let data := queue.data queue.getIndex
    let queue := { queue with
      outside := queue.outside || decide (queue.cells ≤ queue.getIndex)
      getIndex := (queue.getIndex + 1) % queue.capacity
      length := queue.length - 1 }
    some (if queue.length = 0 then { queue with getIndex := 0, putIndex := 0 } else queue, data)

inductive Call where
  | put (data : UInt64)
  | get

inductive Condition where
  | notFull
  | notEmpty
deriving DecidableEq

/-- A call ends by signalling the condition of the other side. -/
def queueMonitor : Monitor Call Queue (Option UInt64) Condition where
  enter
    | .put data, queue => (putData queue data).map fun queue => (queue, none, .notEmpty)
    | .get, queue => (getData queue).map fun (queue, data) => (queue, some data, .notFull)
  awaits
    | .put _ => .notFull
    | .get => .notEmpty

structure Queue.Sound (queue : Queue) : Prop where
  capacity_pos : 0 < queue.capacity
  length_le : queue.length ≤ queue.capacity
  get_lt : queue.getIndex < queue.capacity
  put_eq : queue.putIndex = (queue.getIndex + queue.length) % queue.capacity

structure Queue.Inside (queue : Queue) : Prop where
  room : queue.capacity ≤ queue.cells
  inside : queue.outside = false

def Queue.contents (queue : Queue) : List UInt64 :=
  (List.range queue.length).map fun i => queue.data ((queue.getIndex + i) % queue.capacity)

def channelEnter (capacity : ℕ) : Call → List UInt64 → Option (List UInt64 × Option UInt64)
  | .put data, contents => if contents.length = capacity then none else some (contents ++ [data], none)
  | .get, [] => none
  | .get, data :: contents => some (contents, some data)

variable {queue queue' : Queue} {data : UInt64} {call : Call} {result : Option UInt64}
  {condition : Condition} {totalNIterations capacity : UInt64} {malloc : UInt64 → Option (ℕ → UInt64)}

lemma qinit_eq_ok : qinit totalNIterations capacity malloc = .ok queue ↔
    capacity ≠ 0 ∧ totalNIterations ≠ 0 ∧ headerSize ≤ blockSize capacity ∧
      ∃ garbage, malloc (blockSize capacity) = some garbage ∧
        queue = ⟨0, 0, 0, capacity.toNat, totalNIterations.toNat, garbage,
          (blockSize capacity - headerSize).toNat / 8, false⟩ := by
  rw [qinit]
  by_cases hcapacity : capacity = 0
  · simp [hcapacity]
  by_cases hiterations : totalNIterations = 0
  · simp [hcapacity, hiterations]
  rw [if_neg hcapacity, if_neg hiterations]
  cases malloc (blockSize capacity) with
  | none => simp
  | some garbage =>
    by_cases hsize : blockSize capacity < headerSize
    · simp [hsize, UInt64.not_le.mpr hsize]
    · simp only [hsize, if_false, Except.ok.injEq, Option.some.injEq, exists_eq_left', hcapacity, hiterations,
        UInt64.not_lt.mp hsize, ne_eq, not_false_eq_true, true_and]
      exact eq_comm

lemma qinit_sound (h : qinit totalNIterations capacity malloc = .ok queue) :
    queue.Sound ∧ queue.capacity = capacity.toNat ∧ queue.contents = [] := by
  obtain ⟨hcapacity, -, -, garbage, -, rfl⟩ := qinit_eq_ok.mp h
  have hpos : 0 < capacity.toNat := Nat.pos_of_ne_zero fun hzero => hcapacity (UInt64.toNat_inj.mp hzero)
  exact ⟨⟨hpos, Nat.zero_le _, hpos, (Nat.zero_mod _).symm⟩, rfl, rfl⟩

namespace Queue.Sound

lemma put_lt (h : queue.Sound) : queue.putIndex < queue.capacity := by
  rw [h.put_eq]
  exact Nat.mod_lt _ h.capacity_pos

lemma place_ne_put (h : queue.Sound) {i : ℕ} (hi : i < queue.length)
    (hfree : queue.length ≠ queue.capacity) :
    (queue.getIndex + i) % queue.capacity ≠ queue.putIndex := by
  have hle := h.length_le
  rw [h.put_eq]
  intro heq
  have hmod : i ≡ queue.length [MOD queue.capacity] := Nat.ModEq.add_left_cancel' _ heq
  have hi' : i = queue.length := hmod.eq_of_lt_of_lt (by omega) (by omega)
  omega

lemma putData (h : queue.Sound) (hput : putData queue data = some queue') :
    queue'.Sound ∧ queue'.capacity = queue.capacity ∧ queue'.length = queue.length + 1 ∧
      queue'.contents = queue.contents ++ [data] := by
  rw [BoundedQueue.putData] at hput
  split_ifs at hput with hfull
  obtain rfl := Option.some.inj hput
  have hle := h.length_le
  refine ⟨⟨h.capacity_pos, by simp; omega, h.get_lt, ?_⟩, rfl, rfl, ?_⟩
  · simp [h.put_eq, Nat.add_assoc]
  · simp only [contents, List.range_succ, List.map_append, List.map_singleton]
    congr 1
    · apply List.map_congr_left
      intro i hi
      have hne := h.place_ne_put (List.mem_range.mp hi) hfull
      simp [hne]
    · simp [h.put_eq]

lemma contents_cons (h : queue.Sound) {n : ℕ} (hn : queue.length = n + 1) :
    queue.contents = queue.data queue.getIndex ::
      (List.range n).map fun i =>
        queue.data (((queue.getIndex + 1) % queue.capacity + i) % queue.capacity) := by
  simp only [contents, hn, List.range_succ_eq_map, List.map_cons, List.map_map, Nat.add_zero,
    Nat.mod_eq_of_lt h.get_lt, Nat.mod_add_mod]
  congr 1
  apply List.map_congr_left
  intro i _
  simp [Nat.add_comm i 1, Nat.add_assoc]

lemma getData (h : queue.Sound) (hget : getData queue = some (queue', data)) :
    queue'.Sound ∧ queue'.capacity = queue.capacity ∧ queue.length = queue'.length + 1 ∧
      queue.contents = data :: queue'.contents := by
  rw [BoundedQueue.getData] at hget
  split_ifs at hget with hempty
  simp only [Option.some.injEq, Prod.mk.injEq] at hget
  obtain ⟨rfl, rfl⟩ := hget
  obtain ⟨n, hn⟩ := Nat.exists_eq_succ_of_ne_zero hempty
  have hle := h.length_le
  have hpos := h.capacity_pos
  rw [h.contents_cons hn]
  by_cases hlast : n = 0
  · -- the last item: both indices go back to 0
    subst hlast
    simp only [hn, Nat.succ_eq_add_one, Nat.zero_add, Nat.sub_self, if_true, true_and]
    exact ⟨⟨hpos, Nat.zero_le _, hpos, (Nat.zero_mod _).symm⟩, rfl⟩
  · simp only [hn, Nat.succ_eq_add_one, Nat.add_sub_cancel, hlast, if_false]
    refine ⟨⟨hpos, by simp; omega, Nat.mod_lt _ hpos, ?_⟩, trivial, trivial, rfl⟩
    simp [h.put_eq, hn, Nat.add_comm n 1, Nat.add_assoc]

lemma length_contents (queue : Queue) : queue.contents.length = queue.length := by
  simp [contents]

end Queue.Sound

lemma putData_eq_none : putData queue data = none ↔ queue.length = queue.capacity := by
  simp [putData]

lemma getData_eq_none : getData queue = none ↔ queue.length = 0 := by
  simp [getData]

lemma enter_refines (h : queue.Sound) (call : Call) :
    (queueMonitor.enter call queue).map (fun (queue', result, _) => (queue'.contents, result)) =
      channelEnter queue.capacity call queue.contents := by
  have hlength := Queue.Sound.length_contents queue
  cases call with
  | put data =>
    simp only [queueMonitor, channelEnter, hlength]
    cases hput : putData queue data with
    | none => simp [putData_eq_none.mp hput]
    | some queue' =>
      have hfree : queue.length ≠ queue.capacity := fun hfull => by
        simp [putData_eq_none.mpr hfull] at hput
      simp [hfree, (h.putData hput).2.2.2]
  | get =>
    simp only [queueMonitor]
    cases hget : getData queue with
    | none =>
      have hnil : queue.contents = [] :=
        List.length_eq_zero_iff.mp (hlength.trans (getData_eq_none.mp hget))
      simp [hnil, channelEnter]
    | some got =>
      obtain ⟨next, data⟩ := got
      simp [(h.getData hget).2.2.2, channelEnter]

lemma enter_sound (h : queue.Sound)
    (henter : queueMonitor.enter call queue = some (queue', result, condition)) :
    queue'.Sound ∧ queue'.capacity = queue.capacity := by
  cases call with
  | put data =>
    obtain ⟨next, hput, heq⟩ := Option.map_eq_some_iff.mp henter
    obtain rfl := congrArg Prod.fst heq
    have hnext := h.putData hput
    exact ⟨hnext.1, hnext.2.1⟩
  | get =>
    obtain ⟨⟨next, data⟩, hget, heq⟩ := Option.map_eq_some_iff.mp henter
    obtain rfl := congrArg Prod.fst heq
    have hnext := h.getData hget
    exact ⟨hnext.1, hnext.2.1⟩

lemma enter_inside (h : queue.Sound) (hin : queue.Inside)
    (henter : queueMonitor.enter call queue = some (queue', result, condition)) : queue'.Inside := by
  have hcells : ∀ {i}, i < queue.capacity → decide (queue.cells ≤ i) = false := fun hi =>
    decide_eq_false (Nat.not_le_of_lt (Nat.lt_of_lt_of_le hi hin.room))
  cases call with
  | put data =>
    obtain ⟨next, hput, heq⟩ := Option.map_eq_some_iff.mp henter
    obtain rfl := congrArg Prod.fst heq
    rw [putData] at hput
    split_ifs at hput
    obtain rfl := Option.some.inj hput
    refine ⟨hin.room, ?_⟩
    simp only [hin.inside, Bool.false_or]
    exact hcells h.put_lt
  | get =>
    obtain ⟨⟨next, data⟩, hget, heq⟩ := Option.map_eq_some_iff.mp henter
    obtain rfl := congrArg Prod.fst heq
    rw [getData] at hget
    split_ifs at hget
    simp only [Option.some.injEq, Prod.mk.injEq] at hget
    obtain ⟨rfl, rfl⟩ := hget
    have hread : (queue.outside || decide (queue.cells ≤ queue.getIndex)) = false := by
      rw [hin.inside, hcells h.get_lt, Bool.false_or]
    split_ifs
    · exact ⟨hin.room, hread⟩
    · exact ⟨hin.room, hread⟩

/-- The values passed to `put_data`, in the order of the lock. -/
def sent (log : List (Call × Option UInt64)) : List UInt64 :=
  log.filterMap fun entry =>
    match entry.1 with
    | .put data => some data
    | .get => none

/-- The values that `get_data` returned, in the order of the lock. -/
def received (log : List (Call × Option UInt64)) : List UInt64 := log.filterMap Prod.snd

lemma channelEnter_fifo {capacity : ℕ} {contents contents' : List UInt64} {log : List (Call × Option UInt64)}
    (henter : channelEnter capacity call contents = some (contents', result))
    (h : sent log = received log ++ contents) :
    sent (log ++ [(call, result)]) = received (log ++ [(call, result)]) ++ contents' := by
  simp only [sent, received, List.filterMap_append] at h ⊢
  rw [h]
  cases call with
  | put data =>
    simp only [channelEnter] at henter
    split_ifs at henter
    obtain ⟨rfl, rfl⟩ := Prod.mk.inj (Option.some.inj henter)
    simp
  | get =>
    cases contents with
    | nil => cases henter
    | cons data contents =>
      obtain ⟨rfl, rfl⟩ := Prod.mk.inj (Option.some.inj henter)
      simp

def demand : Condition → Queue → ℕ
  | .notEmpty, queue => queue.length
  | .notFull, queue => queue.capacity - queue.length

lemma queue_demand : Monitor.Demand queueMonitor Queue.Sound demand where
  keeps h henter := (enter_sound h henter).1
  blocked {call queue} h henter := by
    cases call with
    | put data =>
      simp [queueMonitor, putData_eq_none] at henter
      simp [queueMonitor, demand, henter]
    | get =>
      simp [queueMonitor, getData_eq_none] at henter
      simp [queueMonitor, demand, henter]
  ended {call queue queue' result condition} h henter d := by
    cases call with
    | put data =>
      obtain ⟨next, hput, heq⟩ := Option.map_eq_some_iff.mp henter
      simp only [Prod.mk.injEq] at heq
      obtain ⟨rfl, -, rfl⟩ := heq
      obtain ⟨hnext, hcapacity, hlength, -⟩ := h.putData hput
      have hle := hnext.length_le
      cases d <;> simp [queueMonitor, demand, hcapacity, hlength]
      omega
    | get =>
      obtain ⟨⟨next, data⟩, hget, heq⟩ := Option.map_eq_some_iff.mp henter
      simp only [Prod.mk.injEq] at heq
      obtain ⟨rfl, -, rfl⟩ := heq
      obtain ⟨-, hcapacity, hlength, -⟩ := h.getData hget
      have hle := h.length_le
      cases d <;> simp [queueMonitor, demand, hcapacity, hlength]
      omega

section Runs

variable {T : Type} [DecidableEq T] {s : Monitor.Moment T Call Queue (Option UInt64)}

lemma reachable_sound (hqueue : queue.Sound) (hnil : queue.contents = [])
    (h : queueMonitor.Reachable queue s) :
    s.shared.Sound ∧ s.shared.capacity = queue.capacity ∧
      sent s.log = received s.log ++ s.shared.contents := by
  refine h.induction (P := fun shared log => shared.Sound ∧ shared.capacity = queue.capacity ∧
    sent log = received log ++ shared.contents) ⟨hqueue, rfl, by simp [hnil, sent, received]⟩ ?_
  rintro shared log call shared' result condition ⟨hsound, hcapacity, hfifo⟩ henter
  obtain ⟨hsound', hcapacity'⟩ := enter_sound hsound henter
  have hchannel := enter_refines hsound call
  rw [henter] at hchannel
  exact ⟨hsound', hcapacity'.trans hcapacity, channelEnter_fifo hchannel.symm hfifo⟩

lemma reachable_inside (hqueue : queue.Sound) (hin : queue.Inside) (h : queueMonitor.Reachable queue s) :
    s.shared.Inside := by
  refine (h.induction (P := fun shared _ => shared.Sound ∧ shared.Inside) ⟨hqueue, hin⟩ ?_).2
  rintro shared log call shared' result condition ⟨hsound, hinside⟩ henter
  exact ⟨(enter_sound hsound henter).1, enter_inside hsound hinside henter⟩

lemma reachable_puts (queue : Queue) (t : T) (hlength : queue.length = 0) (hput : queue.putIndex = 0) {n : ℕ}
    (hn : n ≤ queue.capacity) :
    ∃ s : Monitor.Moment T Call Queue (Option UInt64), queueMonitor.Reachable queue s ∧
      (∀ u, s.place u = .outside) ∧ s.shared.length = n ∧ s.shared.capacity = queue.capacity ∧
      s.shared.cells = queue.cells ∧ s.shared.putIndex = n % queue.capacity ∧
      (queue.cells < n → s.shared.outside = true) := by
  induction n with
  | zero => exact ⟨_, .init, fun _ => rfl, hlength, rfl, rfl, hput.trans (Nat.zero_mod _).symm, by omega⟩
  | succ n ih =>
    obtain ⟨s, hs, hout, hlen, hcap, hcells, hplace, hbehind⟩ := ih (Nat.le_of_succ_le hn)
    have hfree : s.shared.length ≠ s.shared.capacity := by omega
    have hcall : queueMonitor.Reachable queue _ := hs.step (.call t (.put 0) (hout t))
    have henter : queueMonitor.enter (.put 0) s.shared = some ({ s.shared with
        data := Function.update s.shared.data s.shared.putIndex 0
        outside := s.shared.outside || decide (s.shared.cells ≤ s.shared.putIndex)
        putIndex := (s.shared.putIndex + 1) % s.shared.capacity
        length := s.shared.length + 1 }, none, .notEmpty) := by
      simp [queueMonitor, putData, hfree]
    have hready : ∀ u, (Function.update s.place t (.ready (.put 0)) u).waitsOn queueMonitor.awaits = none := by
      intro u
      by_cases hu : u = t
      · rw [hu, Function.update_self]
        rfl
      · rw [Function.update_of_ne hu, hout u]
        rfl
    have hwakes : queueMonitor.Wakes { s with place := Function.update s.place t (.ready (.put 0)) }
        .notEmpty ∅ := by
      refine ⟨fun u hu => absurd hu (Finset.notMem_empty u), ?_⟩
      rintro ⟨u, hu⟩
      rw [hready u] at hu
      cases hu
    have hdone : queueMonitor.Reachable queue _ :=
      hcall.step (.done (t := t) (Function.update_self ..) henter hwakes)
    refine ⟨_, hdone, fun u => ?_, ?_, hcap, hcells, ?_, fun hlt => ?_⟩
    · change Function.update (Monitor.wakeAll ∅ (Function.update s.place t (.ready (.put 0)))) t .outside u =
        .outside
      by_cases hu : u = t
      · rw [hu, Function.update_self]
      · rw [Function.update_of_ne hu, Monitor.wakeAll, if_neg (Finset.notMem_empty u),
          Function.update_of_ne hu]
        exact hout u
    · exact congrArg (· + 1) hlen
    · change (s.shared.putIndex + 1) % s.shared.capacity = (n + 1) % queue.capacity
      rw [hplace, hcap, Nat.mod_add_mod]
    · change (s.shared.outside || decide (s.shared.cells ≤ s.shared.putIndex)) = true
      rcases Nat.lt_succ_iff_lt_or_eq.mp hlt with hlt | heq
      · rw [hbehind hlt, Bool.true_or]
      · rw [hplace, Nat.mod_eq_of_lt hn, hcells, heq, decide_eq_true le_rfl, Bool.or_true]

def Fifo (T : Type) [DecidableEq T] (capacity : ℕ) (queue : Queue) : Prop :=
  ∀ s : Monitor.Moment T Call Queue (Option UInt64), queueMonitor.Reachable queue s →
    s.shared.outside = false ∧
    received s.log <+: sent s.log ∧
    (sent s.log).length = (received s.log).length + s.shared.length ∧
    s.shared.length ≤ capacity ∧ s.shared.putIndex < capacity ∧ s.shared.getIndex < capacity ∧
    ((∀ t call, s.place t ≠ .ready call) → ∀ t call, s.place t = .waiting call →
      (s.shared.length = capacity ∧
        ∀ u call, s.place u = .waiting call → ∃ data, call = .put data) ∨
      (s.shared.length = 0 ∧ ∀ u call, s.place u = .waiting call → call = .get))

lemma fifo_of_inside [Fintype T] (hqueue : queue.Sound) (hnil : queue.contents = []) (hin : queue.Inside) :
    Fifo T queue.capacity queue := by
  intro s h
  obtain ⟨hsound, hcap, hfifo⟩ := reachable_sound hqueue hnil h
  refine ⟨(reachable_inside hqueue hin h).inside, ⟨_, hfifo.symm⟩, ?_, hcap ▸ hsound.length_le,
    hcap ▸ hsound.put_lt, hcap ▸ hsound.get_lt, ?_⟩
  · rw [hfifo, List.length_append, Queue.Sound.length_contents]
  · intro hquiet t call hwaits
    have hfull : ∀ u data, s.place u = .waiting (.put data) → s.shared.length = queue.capacity := by
      intro u data hu
      have hzero : s.shared.capacity - s.shared.length = 0 := h.quiet queue_demand hqueue hquiet hu
      have hle := hsound.length_le
      omega
    have hempty : ∀ u, s.place u = .waiting .get → s.shared.length = 0 := fun u hu =>
      h.quiet queue_demand hqueue hquiet hu
    have hpos := hqueue.capacity_pos
    cases call with
    | put data =>
      refine Or.inl ⟨hfull t data hwaits, fun u call' hu => ?_⟩
      cases call' with
      | put data' => exact ⟨data', rfl⟩
      | get =>
        have hlength := hfull t data hwaits
        rw [hempty u hu] at hlength
        omega
    | get =>
      refine Or.inr ⟨hempty t hwaits, fun u call' hu => ?_⟩
      cases call' with
      | put data' =>
        have hlength := hfull u data' hu
        rw [hempty t hwaits] at hlength
        omega
      | get => rfl

/-- The header and the array together have a size in `size_t`. -/
def Fits (capacity : UInt64) : Prop := headerSize.toNat + 8 * capacity.toNat < 2 ^ 64

lemma toNat_blockSize (capacity : UInt64) :
    (blockSize capacity).toNat = (headerSize.toNat + 8 * capacity.toNat) % 2 ^ 64 := by
  rw [blockSize, UInt64.toNat_add, UInt64.toNat_mul]
  exact Nat.add_mod_mod _ _ _

lemma cells_of_fits (h : Fits capacity) : headerSize ≤ blockSize capacity ∧
    (blockSize capacity - headerSize).toNat / 8 = capacity.toNat := by
  have hsize := toNat_blockSize capacity
  rw [Nat.mod_eq_of_lt h] at hsize
  have hle : headerSize ≤ blockSize capacity := by
    rw [UInt64.le_iff_toNat_le, hsize]
    exact Nat.le_add_right _ _
  refine ⟨hle, ?_⟩
  rw [UInt64.toNat_sub_of_le _ _ hle, hsize]
  omega

lemma cells_of_not_fits (h : ¬ Fits capacity) (hle : headerSize ≤ blockSize capacity) :
    (blockSize capacity - headerSize).toNat / 8 < capacity.toNat := by
  have hsize := toNat_blockSize capacity
  have hheader : headerSize.toNat = 176 := rfl
  rw [Fits] at h
  rw [UInt64.le_iff_toNat_le] at hle
  rw [UInt64.toNat_sub_of_le _ _ (UInt64.le_iff_toNat_le.mpr hle)]
  omega

theorem queue_is_fifo_iff [Fintype T] [Nonempty T] (hcapacity : 1 ≤ capacity)
    (hiterations : 1 ≤ totalNIterations) :
    (∃ queue, qinit totalNIterations capacity malloc = .ok queue ∧ Fifo T capacity.toNat queue) ↔
      headerSize.toNat + 8 * capacity.toNat < 2 ^ 64 ∧ (malloc (headerSize + 8 * capacity)).isSome = true := by
  have hne : ∀ {n : UInt64}, 1 ≤ n → n ≠ 0 := by
    rintro n hn rfl
    exact absurd hn (by decide)
  constructor
  · rintro ⟨queue, hinit, hfifo⟩
    obtain ⟨-, -, hle, garbage, hmalloc, rfl⟩ := qinit_eq_ok.mp hinit
    refine ⟨?_, Option.isSome_iff_exists.mpr ⟨garbage, hmalloc⟩⟩
    by_contra hfits
    have hcells := cells_of_not_fits hfits hle
    obtain ⟨t⟩ := ‹Nonempty T›
    obtain ⟨s, hs, -, -, -, -, -, houtside⟩ := reachable_puts ⟨0, 0, 0, capacity.toNat,
      totalNIterations.toNat, garbage, (blockSize capacity - headerSize).toNat / 8, false⟩ t rfl rfl hcells
    have hinside := (hfifo s hs).1
    rw [houtside (Nat.lt_succ_self _)] at hinside
    cases hinside
  · rintro ⟨hfits, hmalloc⟩
    obtain ⟨garbage, hgarbage⟩ := Option.isSome_iff_exists.mp hmalloc
    obtain ⟨hle, hcells⟩ := cells_of_fits hfits
    have hinit := qinit_eq_ok.mpr ⟨hne hcapacity, hne hiterations, hle, garbage, hgarbage, rfl⟩
    obtain ⟨hqueue, -, hnil⟩ := qinit_sound hinit
    exact ⟨_, hinit, fifo_of_inside hqueue hnil ⟨hcells.ge, rfl⟩⟩

theorem queue_is_fifo_iff_waiting : ∃ queue, qinit 3 2 (fun _ => some fun _ => 0) = .ok queue ∧
    ∃ s : Monitor.Moment (Fin 2) Call Queue (Option UInt64), queueMonitor.Reachable queue s ∧
      s.place 1 = .waiting .get ∧ s.shared.outside = false ∧ received s.log <+: sent s.log ∧
      ∀ u call, s.place u = .waiting call → call = .get := by
  let malloc : UInt64 → Option (ℕ → UInt64) := fun _ => some fun _ => 0
  have hfits : headerSize.toNat + 8 * (2 : UInt64).toNat < 2 ^ 64 ∧
      (malloc (headerSize + 8 * 2)).isSome = true := ⟨by decide, rfl⟩
  obtain ⟨queue, hinit, h⟩ :=
    (queue_is_fifo_iff (T := Fin 2) (by decide) (by decide : 1 ≤ (3 : UInt64))).mpr hfits
  obtain ⟨-, -, -, garbage, -, rfl⟩ := qinit_eq_ok.mp hinit
  let queue : Queue := ⟨0, 0, 0, (2 : UInt64).toNat, (3 : UInt64).toNat, garbage,
    (blockSize 2 - headerSize).toNat / 8, false⟩
  have hcall : queueMonitor.Reachable queue _ := Monitor.Reachable.init.step (.call (1 : Fin 2) .get rfl)
  have hwait : queueMonitor.Reachable queue _ :=
    hcall.step (@Monitor.Step.wait _ _ _ _ _ _ _ _ 1 .get rfl rfl)
  obtain ⟨hinside, hpre, -, -, -, -, hquiet⟩ := h _ hwait
  refine ⟨_, hinit, _, hwait, rfl, hinside, hpre, ?_⟩
  have hready : ∀ (t : Fin 2) call, Function.update (Function.update (fun _ => Place.outside) 1
      (.ready Call.get)) 1 (.waiting .get) t ≠ .ready call := by
    intro t call
    fin_cases t
    · exact nofun
    · exact nofun
  rcases hquiet hready 1 .get rfl with ⟨hfull, -⟩ | ⟨-, hall⟩
  · cases hfull
  · exact hall

theorem queue_behind_block : ¬ ∃ queue,
    qinit 5 2305843009213693952 (fun size => if size ≤ 4096 then some fun _ => 0 else none) = .ok queue ∧
      Fifo (Fin 2) 2305843009213693952 queue := by
  rintro ⟨queue, hinit, hfifo⟩
  obtain ⟨-, -, -, garbage, -, rfl⟩ := qinit_eq_ok.mp hinit
  obtain ⟨s, hs, -, -, -, -, -, houtside⟩ := reachable_puts ⟨0, 0, 0, 2305843009213693952, 5,
    garbage, 0, false⟩ (0 : Fin 2) rfl rfl (n := 1) (by simp)
  have hinside := (hfifo s hs).1
  rw [houtside Nat.one_pos] at hinside
  cases hinside

end Runs

end SystemsLab.BoundedQueue
