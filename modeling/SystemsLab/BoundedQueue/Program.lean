import SystemsLab.Threads.Crews
import SystemsLab.BoundedQueue.Queue
import SystemsLab.CLib.Decimals
import SystemsLab.CLib.Numbers

namespace SystemsLab.BoundedQueue

open CLib Threads Monitor

/-- The two threads of `main`. -/
inductive Side where
  | producer
  | consumer
deriving DecidableEq

instance : Fintype Side where
  elems := {.producer, .consumer}
  complete t := by cases t <;> decide

def numbers (n : ℕ) : List UInt64 := (List.range n).map UInt64.ofNat

def produce (queue : Queue) : List Call := (numbers queue.totalNIterations).map .put

def consume (queue : Queue) : List Call := List.replicate queue.totalNIterations .get

abbrev Crew := Monitor.Crew Side Call Queue (Option UInt64)

def start (queue : Queue) : Crew :=
  ⟨initial Side Call (Option UInt64) queue, fun
    | .producer => produce queue
    | .consumer => consume queue⟩

/-- `main` up to the threads. It returns when both have ended. -/
def main (malloc : UInt64 → Option (ℕ → UInt64)) (argv : List Bytes) : Except Failure Crew :=
  match argv with
  | [_, totalNIterations, queueSize] =>
    match qinit (.ofNat (strtoull totalNIterations).value) (.ofNat (strtoull queueSize).value) malloc with
    | .error failure => .error failure
    | .ok queue => .ok (start queue)
  | _ => .error (.exit (ascii "usage: " ++ argv.headD [] ++ ascii " <total_n_iterations> <queue_size>\n"))

def putLine (data : UInt64) : Bytes := ascii "put data " ++ decimal data.toNat ++ ascii " to queue\n"

def getLine (data : UInt64) : Bytes := ascii "get data " ++ decimal data.toNat ++ ascii " from queue\n"

def printed : Call × Option UInt64 → Bytes
  | (.put data, _) => putLine data
  | (.get, data) => getLine (data.getD 0)

structure Working (n : ℕ) (s : Crew) (i j : ℕ) : Prop where
  put_le : i ≤ n
  get_le : j ≤ n
  producer : s.todo .producer = ((numbers n).drop i).map .put
  consumer : s.todo .consumer = List.replicate (n - j) .get
  sent : sent s.moment.log = (numbers n).take i
  received : (received s.moment.log).length = j
  output : (s.moment.log.map printed).Perm
    ((BoundedQueue.sent s.moment.log).map putLine ++ (BoundedQueue.received s.moment.log).map getLine)

variable {n i j k : ℕ} {s s' : Crew} {b : Bool} {queue : Queue} {log : List (Call × Option UInt64)}
  {data : UInt64} {call : Call}

lemma length_numbers (n : ℕ) : (numbers n).length = n := by
  rw [numbers, List.length_map, List.length_range]

lemma sent_put (log : List (Call × Option UInt64)) (data : UInt64) (result : Option UInt64) :
    sent (log ++ [(.put data, result)]) = sent log ++ [data] := List.filterMap_append

lemma sent_get (log : List (Call × Option UInt64)) (result : Option UInt64) :
    sent (log ++ [(.get, result)]) = sent log := by
  rw [sent, List.filterMap_append]
  exact List.append_nil _

lemma received_append (log : List (Call × Option UInt64)) (call : Call) (result : Option UInt64) :
    received (log ++ [(call, result)]) = received log ++ result.toList := by
  rw [received, List.filterMap_append]
  cases result <;> rfl

lemma start_working (queue : Queue) : Working queue.totalNIterations (start queue) 0 0 where
  put_le := Nat.zero_le _
  get_le := Nat.zero_le _
  producer := rfl
  consumer := rfl
  sent := rfl
  received := rfl
  output := .refl _

lemma Working.step (h : Working n s i j) (hs : Crew.Step queueMonitor b s s') :
    ∃ i' j', Working n s' i' j' := by
  obtain ⟨hput, hget, hproducer, hconsumer, hsent, hreceived, houtput⟩ := h
  rcases hs.todo_eq with ⟨-, hlog, htodo⟩ | ⟨t, call, result, condition, htodo, hothers, hlog, henter⟩
  · refine ⟨i, j, hput, hget, (htodo _).trans hproducer, (htodo _).trans hconsumer, ?_, ?_, ?_⟩
    · rwa [hlog]
    · rwa [hlog]
    · rwa [hlog]
  · cases t with
    | producer =>
      have hlt : i < n := by
        by_contra hle
        rw [hproducer, List.drop_eq_nil_of_le (by rw [length_numbers]; omega)] at htodo
        cases htodo
      have hlen : i < (numbers n).length := by rwa [length_numbers]
      rw [hproducer, List.drop_eq_getElem_cons hlen, List.map_cons] at htodo
      obtain ⟨rfl, hleft⟩ := List.cons.inj htodo
      obtain ⟨next, -, heq⟩ := Option.map_eq_some_iff.mp henter
      obtain rfl : none = result := (Prod.mk.inj (Prod.mk.inj heq).2).1
      refine ⟨i + 1, j, hlt, hget, hleft.symm, (hothers .consumer nofun).trans hconsumer, ?_, ?_, ?_⟩
      · rw [hlog, sent_put, hsent, List.take_append_getElem hlen]
      · rw [hlog, received_append]
        exact (congrArg List.length (List.append_nil _)).trans hreceived
      · rw [hlog, sent_put, received_append, List.map_append, List.map_append, List.append_assoc]
        refine (houtput.append_right _).trans ?_
        rw [List.append_assoc]
        refine List.Perm.append_left _ ?_
        rw [Option.toList_none, List.append_nil]
        exact List.perm_append_comm
    | consumer =>
      have hlt : j < n := by
        by_contra hle
        rw [hconsumer, Nat.sub_eq_zero_of_le (by omega)] at htodo
        cases htodo
      rw [hconsumer, show n - j = n - (j + 1) + 1 by omega, List.replicate_succ] at htodo
      obtain ⟨rfl, hleft⟩ := List.cons.inj htodo
      obtain ⟨⟨next, data⟩, -, heq⟩ := Option.map_eq_some_iff.mp henter
      obtain rfl : some data = result := (Prod.mk.inj (Prod.mk.inj heq).2).1
      refine ⟨i, j + 1, hput, hlt, (hothers .producer nofun).trans hproducer, hleft.symm, ?_, ?_, ?_⟩
      · rw [hlog, sent_get, hsent]
      · rw [hlog, received_append, List.length_append, hreceived]
        rfl
      · rw [hlog, sent_get, received_append, List.map_append, List.map_append]
        refine (houtput.append_right _).trans ?_
        rw [List.append_assoc]
        rfl

section Runs

variable (hqueue : queue.Sound) (hnil : queue.contents = [])

include hqueue hnil

lemma run_working (h : Crew.Run queueMonitor k n (start queue) s) :
    ∃ i j, Working queue.totalNIterations s i j ∧ i = j + s.moment.shared.length ∧
      s.moment.shared.capacity = queue.capacity ∧ s.moment.shared.Sound ∧
      sent s.moment.log = received s.moment.log ++ s.moment.shared.contents := by
  have hreachable := h.reachable rfl
  obtain ⟨hsound, hcapacity, hfifo⟩ := reachable_sound hqueue hnil hreachable
  have hworking : ∃ i j, Working queue.totalNIterations s i j := by
    apply h.induction ⟨0, 0, start_working queue⟩ _ rfl
    rintro a a' b - ⟨i, j, ha⟩ hs
    exact ha.step hs
  obtain ⟨i, j, hworking⟩ := hworking
  refine ⟨i, j, hworking, ?_, hcapacity, hsound, hfifo⟩
  have hlen := congrArg List.length hfifo
  rw [hworking.sent, List.length_append, hworking.received, Queue.Sound.length_contents, List.length_take,
    length_numbers, Nat.min_eq_left hworking.put_le] at hlen
  exact hlen

lemma ended_of_stuck (h : Crew.Run queueMonitor k n (start queue) s)
    (hstuck : ∀ s', ¬ Crew.Step queueMonitor false s s') : s.Ended := by
  obtain ⟨i, j, hworking, hi, hcapacity, hsound, -⟩ := run_working hqueue hnil h
  obtain ⟨hquiet, houtside⟩ := Crew.quiet_of_stuck hstuck
  have hput := hworking.put_le
  have hget := hworking.get_le
  have hpos := hsound.capacity_pos
  have hproducer : s.todo .producer = [] ∨ i < queue.totalNIterations ∧
      s.moment.shared.length = s.moment.shared.capacity := by
    cases hp : s.moment.place .producer with
    | outside => exact Or.inl (Crew.todo_eq_nil.mpr ⟨hp, houtside _ hp⟩)
    | ready call => exact absurd hp (hquiet _ call)
    | waiting call =>
      have htodo := hworking.producer
      rw [Crew.todo, hp] at htodo
      have hlt : i < queue.totalNIterations := by
        by_contra hle
        rw [List.drop_eq_nil_of_le (by rw [length_numbers]; omega)] at htodo
        cases htodo
      rw [List.drop_eq_getElem_cons (by rwa [length_numbers]), List.map_cons] at htodo
      obtain rfl := (List.cons.inj htodo).1
      have hzero := (h.reachable rfl).quiet queue_demand hqueue hquiet hp
      change s.moment.shared.capacity - s.moment.shared.length = 0 at hzero
      have hle := hsound.length_le
      exact Or.inr ⟨hlt, by omega⟩
  have hconsumer : s.todo .consumer = [] ∨ j < queue.totalNIterations ∧ s.moment.shared.length = 0 := by
    cases hp : s.moment.place .consumer with
    | outside => exact Or.inl (Crew.todo_eq_nil.mpr ⟨hp, houtside _ hp⟩)
    | ready call => exact absurd hp (hquiet _ call)
    | waiting call =>
      have htodo := hworking.consumer
      rw [Crew.todo, hp] at htodo
      have hlt : j < queue.totalNIterations := by
        by_contra hle
        rw [Nat.sub_eq_zero_of_le (by omega)] at htodo
        cases htodo
      rw [show queue.totalNIterations - j = queue.totalNIterations - (j + 1) + 1 by omega,
        List.replicate_succ] at htodo
      obtain rfl := (List.cons.inj htodo).1
      exact Or.inr ⟨hlt, (h.reachable rfl).quiet queue_demand hqueue hquiet hp⟩
  have hi' : s.todo .producer = [] → i = queue.totalNIterations := by
    intro hnil
    rw [hworking.producer, List.map_eq_nil_iff, List.drop_eq_nil_iff, length_numbers] at hnil
    omega
  have hj' : s.todo .consumer = [] → j = queue.totalNIterations := by
    intro hnil
    rw [hworking.consumer, List.replicate_eq_nil_iff] at hnil
    omega
  have hends : s.todo .producer = [] ∧ s.todo .consumer = [] := by
    rcases hproducer with hp | ⟨hlt, hfull⟩
    · refine ⟨hp, hconsumer.resolve_right ?_⟩
      rintro ⟨hlt, hempty⟩
      have hall := hi' hp
      omega
    · rcases hconsumer with hc | ⟨hlt', hempty⟩
      · have hall := hj' hc
        omega
      · omega
  intro t
  cases t with
  | producer => exact Crew.todo_eq_nil.mp hends.1
  | consumer => exact Crew.todo_eq_nil.mp hends.2

end Runs

lemma strtoull_lt (text : Bytes) : (strtoull text).value < 2 ^ 64 := by
  rw [strtoull]
  generalize splitSign (text.dropWhile isSpace) = signed
  dsimp only
  split_ifs with hdigits hbig
  · exact Nat.two_pow_pos 64
  · exact Nat.sub_lt (Nat.two_pow_pos 64) Nat.one_pos
  · exact Nat.mod_lt _ (Nat.two_pow_pos 64)
  · exact Nat.lt_of_le_pred (Nat.two_pow_pos 64) (Nat.le_of_not_lt hbig)

lemma toNat_strtoull (text : Bytes) : (UInt64.ofNat (strtoull text).value).toNat = (strtoull text).value :=
  UInt64.toNat_ofNat_of_lt' (strtoull_lt text)

theorem program_carries_all (malloc : UInt64 → Option (ℕ → UInt64))
    (program totalNIterations queueSize : Bytes) (s₀ : Crew)
    (hmain : main malloc [program, totalNIterations, queueSize] = .ok s₀)
    (hfits : headerSize.toNat + 8 * (strtoull queueSize).value < 2 ^ 64) (k n : ℕ) (s : Crew)
    (h : Crew.Run queueMonitor k n s₀ s) :
    n ≤ 8 * (strtoull totalNIterations).value + 2 * k ∧
      ((∀ s', ¬ Crew.Step queueMonitor false s s') ↔ s.Ended) ∧
      s.moment.shared.outside = false ∧
      received s.moment.log <+: sent s.moment.log ∧
      sent s.moment.log <+: numbers (strtoull totalNIterations).value ∧
      (sent s.moment.log).length ≤ (received s.moment.log).length + (strtoull queueSize).value ∧
      (s.Ended → received s.moment.log = numbers (strtoull totalNIterations).value ∧
        (s.moment.log.map printed).Perm
          ((numbers (strtoull totalNIterations).value).map putLine ++
            (numbers (strtoull totalNIterations).value).map getLine)) := by
  simp only [main] at hmain
  split at hmain
  · cases hmain
  next queue hinit =>
  cases hmain
  obtain ⟨hqueue, hcapacity, hnil⟩ := qinit_sound hinit
  rw [toNat_strtoull] at hcapacity
  have htotal : queue.totalNIterations = (strtoull totalNIterations).value := by
    obtain ⟨-, -, -, garbage, -, rfl⟩ := qinit_eq_ok.mp hinit
    exact toNat_strtoull totalNIterations
  have hinside : queue.Inside := by
    obtain ⟨-, -, -, garbage, -, rfl⟩ := qinit_eq_ok.mp hinit
    rw [← toNat_strtoull] at hfits
    exact ⟨(cells_of_fits hfits).2.ge, rfl⟩
  obtain ⟨i, j, hworking, hi, hsame, hsound, hfifo⟩ := run_working hqueue hnil h
  rw [hcapacity] at hsame
  rw [htotal] at hworking
  have hlength := h.length_le
  have hstart : (start queue).weight = 8 * (strtoull totalNIterations).value := by
    rw [Crew.weight_start _ fun _ => rfl, ← htotal]
    have hsum : ∑ t, ((start queue).left t).length = queue.totalNIterations + queue.totalNIterations := by
      have huniv : (Finset.univ : Finset Side) = {.producer, .consumer} := rfl
      rw [huniv, Finset.sum_pair (by decide : Side.producer ≠ .consumer)]
      simp only [start, produce, consume, List.length_map, List.length_replicate, length_numbers]
    rw [hsum]
    have hcard : Fintype.card Side = 2 := rfl
    rw [hcard]
    omega
  have hle := hsound.length_le
  refine ⟨by omega, ⟨ended_of_stuck hqueue hnil h, fun hend s' => hend.stuck s'⟩,
    (reachable_inside hqueue hinside (h.reachable rfl)).inside, ⟨_, hfifo.symm⟩, ?_, ?_, fun hend => ?_⟩
  · rw [hworking.sent]
    exact List.take_prefix _ _
  · rw [hworking.received, hworking.sent, List.length_take, length_numbers]
    omega
  · have hproducer := hworking.producer
    have hconsumer := hworking.consumer
    rw [Crew.todo_eq_nil.mpr (hend _), eq_comm, List.map_eq_nil_iff, List.drop_eq_nil_iff,
      length_numbers] at hproducer
    rw [Crew.todo_eq_nil.mpr (hend _), eq_comm, List.replicate_eq_nil_iff] at hconsumer
    have hput := hworking.put_le
    have hget := hworking.get_le
    have hempty : s.moment.shared.contents = [] := by
      apply List.length_eq_zero_iff.mp
      rw [Queue.Sound.length_contents]
      omega
    have hsent := hworking.sent
    rw [List.take_of_length_le (by rw [length_numbers]; omega)] at hsent
    rw [hempty, List.append_nil, hsent] at hfifo
    have houtput := hworking.output
    rw [hsent, ← hfifo] at houtput
    exact ⟨hfifo.symm, houtput⟩

theorem program_carries_all_one : ∃ s₀ s,
    main (fun _ => some fun _ => 0) [ascii "w13", ascii "1", ascii "1"] = .ok s₀ ∧
    Crew.Run queueMonitor 0 4 s₀ s ∧ received s.moment.log = numbers 1 := by
  let queue : Queue := ⟨0, 0, 0, 1, 1, fun _ => 0, 1, false⟩
  have hmain : main (fun _ => some fun _ => 0) [ascii "w13", ascii "1", ascii "1"] = .ok (start queue) := rfl
  have hnobody : ∀ (m : Moment Side Call Queue (Option UInt64)) (condition : Condition),
      (∀ t, (m.place t).waitsOn queueMonitor.awaits = none) → queueMonitor.Wakes m condition ∅ := by
    intro m condition hnone
    refine ⟨fun t ht => absurd ht (Finset.notMem_empty t), fun ⟨t, ht⟩ => ?_⟩
    rw [hnone t] at ht
    cases ht
  have hcall : Crew.Run queueMonitor 0 1 (start queue) _ :=
    (Crew.Run.nil _).snoc (.call (t := .producer) rfl rfl)
  have hput : Crew.Run queueMonitor 0 2 (start queue) _ :=
    hcall.snoc (.done (t := .producer) rfl rfl (hnobody _ _ fun t => by cases t <;> rfl))
  have hcall' : Crew.Run queueMonitor 0 3 (start queue) _ := hput.snoc (.call (t := .consumer) rfl rfl)
  have hget : Crew.Run queueMonitor 0 4 (start queue) _ :=
    hcall'.snoc (.done (t := .consumer) rfl rfl (hnobody _ _ fun t => by cases t <;> rfl))
  have h := program_carries_all (fun _ => some fun _ => 0) (ascii "w13") (ascii "1") (ascii "1") _ hmain
    (by decide) 0 4 _ hget
  exact ⟨_, _, hmain, hget, (h.2.2.2.2.2.2 fun t => by cases t <;> exact ⟨rfl, rfl⟩).1⟩

end SystemsLab.BoundedQueue
