import SystemsLab.Reservation.Connections
import SystemsLab.Threads.Ranks

namespace SystemsLab.Reservation

open CLib Threads Function

/-- What is closed, destroyed or freed. -/
inductive Resource
  | pipeIn (w : ℕ)
  | descriptor (fd : ℤ)
  | activeUser (w j : ℕ)
  | mutex (m : Mutex)
  | pollSet (w : ℕ)
  | userWhoBooked (i : ℕ)
  | seats
  | listenfd
  | tidArr
  | pipeFds
  | dataArr
  | username (uid : ℕ)
  | hashedPassword (uid : ℕ)
  | userMutex
  | userArray

/-- Where `main` is. The places from `notify` on are those of `terminate_after_cleanup`. -/
inductive Cleanup
  | looping
  | notify (i : ℕ)
  | closeWrite (i : ℕ)
  | join (i : ℕ)
  | closeRead (i : ℕ)
  | closeSlot (i j : ℕ)
  | freeShared
  | returned

/-- The loop of `terminate_after_cleanup` over the workers, from `i` on. -/
def cleanupFrom (n i : ℕ) : Cleanup := if i < n then .notify i else .freeShared

/-- The threads with the flag that the signal handler sets. A thread has `passed` the check of its loop
when it is in a turn of it, and a worker has `ended` when it is out of it. A pipe has its bytes, and its
write end may be closed. -/
structure Process (C : Config) where
  threads : Server C
  sigintReceived : Bool
  passed : Thread C.nCores → Bool
  ended : ℕ → Bool
  bytes : ℕ → ℕ
  closed : ℕ → Bool
  cleanup : Cleanup
  released : List Resource

def pipeBuffer : ℕ := 64

section Released

variable (C : Config) (d : Data)

def slotReleased (i j : ℕ) : List Resource :=
  .descriptor ((d.pollSets i).fd j) :: if (d.activeUser i j).isSome then [.activeUser i j] else []

def seatReleased (i : ℕ) : List Resource :=
  .mutex (.seat i) :: if (d.seats i).userWhoBooked.isSome then [.userWhoBooked i] else []

def userReleased (uid : ℕ) : List Resource :=
  if uid < d.users.length then [.username uid, .hashedPassword uid, .mutex (.user uid)]
  else [.mutex (.user uid)]

def freeUsers : List Resource :=
  (List.range numUsers).flatMap (userReleased d) ++ [.userMutex, .userArray, .mutex .array]

def sharedReleased : List Resource :=
  (List.range numSeats).flatMap (seatReleased d) ++
    ([.seats, .listenfd, .tidArr, .pipeFds, .dataArr] ++ freeUsers d)

end Released

inductive Actor (n : ℕ)
  | sigint
  | thread (t : Thread n)

namespace Process

variable {C : Config} (s : Process C)

def start (C : Config) : Process C where
  threads := Program.start (initialData C) initialPc
  sigintReceived := false
  passed _ := false
  ended _ := false
  bytes _ := 0
  closed _ := false
  cleanup := .looping
  released := []

def step (t : Thread C.nCores) (o : Oracle) : Outcome (Process C) :=
  ((server C).step s.threads t o).map fun threads => { s with threads }

/-- The read end of the pipe is reported by `poll`. -/
def readable (w : ℕ) : Bool := decide (0 < s.bytes w) || s.closed w

def leave (w : ℕ) : Process C := { s with ended := update s.ended w true }

/-- `thread_func`, with the checks of `sigint_received` and the pipe. -/
def workerTurn (w : Fin C.nCores) (o : Oracle) : Outcome (Process C) :=
  if s.ended w then .stuck
  else
    match s.threads.pc (.worker w) with
    | .top =>
      if s.passed (.worker w) then
        { s with passed := update s.passed (.worker w) false }.step (.worker w) o
      else if s.sigintReceived then .next (s.leave w)
      else .next { s with passed := update s.passed (.worker w) true }
    | .polling _ =>
      -- `poll` returns with `EINTR`, or it reports the pipe if there is something to read.
      if o.ready = [] ∨ (C.pipeOut w ∈ o.ready.map Prod.fst ↔ s.readable w) then s.step (.worker w) o
      else .stuck
    | .serve ((fd, _) :: _) =>
      if fd = C.pipeOut w then
        if 0 < s.bytes w then
          { s with bytes := update s.bytes w (s.bytes w - pipeBuffer) }.step (.worker w) o
        else if s.closed w then
          -- `break` comes to the check of the loop.
          if s.sigintReceived then .next (s.leave w) else s.step (.worker w) o
        else .stuck
      else s.step (.worker w) o
    | _ => s.step (.worker w) o

/-- The loop of `main`. `poll` and `accept` come back without a connection on `EINTR`, or when standard
input asks for a SIGINT. -/
def mainTurn (o : Oracle) : Outcome (Process C) :=
  match s.threads.pc .main with
  | .main .accepting =>
    if s.passed .main then
      if o.connfd < 0 then .next { s with passed := update s.passed .main false }
      else { s with passed := update s.passed .main false }.step .main o
    else if s.sigintReceived then
      .next { s with cleanup := cleanupFrom C.nCores 0 }
    else .next { s with passed := update s.passed .main true }
  | .main (.addUnlock j _) =>
    -- `notify_pollset`
    { s with bytes := update s.bytes j (s.bytes j + 1) }.step .main o
  | _ => s.step .main o

def release (resources : List Resource) (cleanup : Cleanup) : Process C :=
  { s with released := s.released ++ resources, cleanup }

/-- `terminate_after_cleanup` -/
def cleanupTurn : Cleanup → Outcome (Process C)
  | .looping => .stuck
  | .notify i => .next { s with bytes := update s.bytes i (s.bytes i + 1), cleanup := .closeWrite i }
  | .closeWrite i => .next ({ s with closed := update s.closed i true }.release [.pipeIn i] (.join i))
  | .join i => if s.ended i then .next { s with cleanup := .closeRead i } else .stuck
  | .closeRead i => .next (s.release [.descriptor (C.pipeOut i)] (.closeSlot i 1))
  | .closeSlot i j =>
    if j < (s.threads.data.pollSets i).size then
      .next (s.release (slotReleased s.threads.data i j) (.closeSlot i (j + 1)))
    else
      .next (s.release [.mutex (.pollSet i), .pollSet i]
        (cleanupFrom C.nCores (i + 1)))
  | .freeShared => .next (s.release (sharedReleased s.threads.data) .returned)
  | .returned => .stuck

def turn (s : Process C) : Actor C.nCores × Oracle → Outcome (Process C)
  | (.sigint, _) => if s.sigintReceived then .stuck else .next { s with sigintReceived := true }
  | (.thread (.worker w), o) => s.workerTurn w o
  | (.thread .main, o) =>
    match s.cleanup with
    | .looping => s.mainTurn o
    | cleanup => s.cleanupTurn cleanup

def Reached (s : Process C) : Prop := ∃ l, follow turn (start C) l = some s

end Process

def Pc.Resting : Pc → Prop
  | top => True
  | serve _ => True
  | _ => False

namespace Process

variable {C : Config} {s s' : Process C} {w : Fin C.nCores} {t : Thread C.nCores} {o : Oracle}

inductive Step (s : Process C) : Process C → Prop
  | sigint (hsigint : s.sigintReceived = false) : Step s { s with sigintReceived := true }
  | check {w : Fin C.nCores} (hended : s.ended w = false) (htop : s.threads.pc (.worker w) = .top)
      (hsigint : s.sigintReceived = false) :
      Step s { s with passed := update s.passed (.worker w) true }
  | work {w : Fin C.nCores} {o : Oracle} {threads : Server C} {passed : Thread C.nCores → Bool}
      {bytes : ℕ → ℕ} (hended : s.ended w = false)
      (hstep : (server C).step s.threads (.worker w) o = .next threads)
      (htop : s.threads.pc (.worker w) = .top → s.passed (.worker w) = true)
      (hpassed : passed (.worker w) = true →
        s.passed (.worker w) = true ∧ s.threads.pc (.worker w) ≠ .top)
      (hothers : ∀ v, v ≠ w → passed (.worker v) = s.passed (.worker v)) :
      Step s { s with threads, passed, bytes }
  | leave {w : Fin C.nCores} (hended : s.ended w = false) (hsigint : s.sigintReceived = true)
      (hrest : (s.threads.pc (.worker w)).Resting) : Step s (s.leave w)
  | loop {o : Oracle} {threads : Server C} {passed : Thread C.nCores → Bool} {bytes : ℕ → ℕ}
      (hloop : s.cleanup = .looping) (hstep : (server C).step s.threads .main o = .next threads)
      (hothers : ∀ v, passed (.worker v) = s.passed (.worker v)) :
      Step s { s with threads, passed, bytes }
  | again {passed : Thread C.nCores → Bool} (hloop : s.cleanup = .looping)
      (hothers : ∀ v, passed (.worker v) = s.passed (.worker v)) : Step s { s with passed }
  | enter (hloop : s.cleanup = .looping) (hsigint : s.sigintReceived = true)
      (hpc : s.threads.pc .main = .main .accepting) :
      Step s { s with cleanup := cleanupFrom C.nCores 0 }
  | clean {s' : Process C} (h : s.cleanupTurn s.cleanup = .next s') : Step s s'

lemma step_next (h : s.step t o = .next s') :
    ∃ threads, (server C).step s.threads t o = .next threads ∧ s' = { s with threads } := by
  obtain ⟨threads, hstep, rfl⟩ := Outcome.map_next h
  exact ⟨threads, hstep, rfl⟩

lemma workerTurn_step (h : s.workerTurn w o = .next s') : s.Step s' := by
  have hwork : ∀ {bytes : ℕ → ℕ}, s.ended w = false → s.threads.pc (.worker w) ≠ .top →
      { s with bytes }.step (.worker w) o = .next s' → s.Step s' := by
    intro bytes hended hpc hstep
    obtain ⟨threads, hthreads, rfl⟩ := step_next hstep
    exact .work hended hthreads (fun htop => absurd htop hpc) (fun hpassed => ⟨hpassed, hpc⟩)
      fun _ _ => rfl
  rw [workerTurn] at h
  cases hended : s.ended w with
  | true =>
    rw [hended, if_pos rfl] at h
    cases h
  | false =>
    rw [hended, if_neg Bool.false_ne_true] at h
    split at h
    · next hpc =>
      split_ifs at h with hpassed hsigint
      · obtain ⟨threads, hthreads, rfl⟩ := step_next h
        refine .work hended hthreads (fun _ => hpassed) (fun hp => ?_) fun v hv => ?_
        · have hself : update s.passed (.worker w) false (.worker w) = false := update_self ..
          exact absurd (hself.symm.trans hp) Bool.false_ne_true
        · exact update_of_ne (by simpa using hv) _ _
      · cases h
        exact .leave hended hsigint (by rw [hpc]; trivial)
      · cases h
        exact .check hended hpc (by simpa using hsigint)
    · next hpc =>
      split_ifs at h
      exact hwork hended (by rw [hpc]; rintro ⟨⟩) h
    · next hpc =>
      have hne : s.threads.pc (.worker w) ≠ .top := by
        rw [hpc]
        rintro ⟨⟩
      split_ifs at h with hfd hbytes hclosed hsigint
      · exact hwork hended hne h
      · cases h
        exact .leave hended hsigint (by rw [hpc]; trivial)
      · exact hwork hended hne h
      · exact hwork hended hne h
    · next htop _ _ => exact hwork hended htop h

lemma mainTurn_step (hloop : s.cleanup = .looping) (h : s.mainTurn o = .next s') : s.Step s' := by
  have hworkers : ∀ (b : Bool) (v : Fin C.nCores),
      update s.passed .main b (.worker v) = s.passed (.worker v) :=
    fun b v => update_of_ne (by rintro ⟨⟩) _ _
  rw [mainTurn] at h
  split at h
  · next hpc =>
    split_ifs at h with hpassed hconnfd hsigint
    · cases h
      exact .again hloop (hworkers _)
    · obtain ⟨threads, hthreads, rfl⟩ := step_next h
      exact .loop hloop hthreads (hworkers false)
    · cases h
      exact .enter hloop hsigint hpc
    · cases h
      exact .again hloop (hworkers _)
  · obtain ⟨threads, hthreads, rfl⟩ := step_next h
    exact .loop hloop hthreads fun _ => rfl
  · obtain ⟨threads, hthreads, rfl⟩ := step_next h
    exact .loop hloop hthreads fun _ => rfl

lemma turn_step {a : Actor C.nCores × Oracle} (h : s.turn a = .next s') : s.Step s' := by
  obtain ⟨actor, o⟩ := a
  cases actor with
  | sigint =>
    simp only [turn] at h
    split_ifs at h with hsigint
    cases h
    exact .sigint (by simpa using hsigint)
  | thread t =>
    cases t with
    | worker w => exact workerTurn_step h
    | main =>
      simp only [turn] at h
      split at h
      · next hloop => exact mainTurn_step hloop h
      · exact .clean h

end Process

section Order

variable (C : Config) (d : Data)

/-- The slots behind the first one, up to `j`. -/
def slotsReleased (i j : ℕ) : List Resource := (List.range' 1 (j - 1)).flatMap (slotReleased d i)

def setReleased (i : ℕ) : List Resource :=
  [.pipeIn i, .descriptor (C.pipeOut i)] ++ slotsReleased d i (d.pollSets i).size ++
    [.mutex (.pollSet i), .pollSet i]

def setsReleased (i : ℕ) : List Resource := (List.range i).flatMap (setReleased C d)

namespace Cleanup

def sofar : Cleanup → List Resource
  | looping => []
  | notify i => setsReleased C d i
  | closeWrite i => setsReleased C d i
  | join i => setsReleased C d i ++ [.pipeIn i]
  | closeRead i => setsReleased C d i ++ [.pipeIn i]
  | closeSlot i j =>
    setsReleased C d i ++ ([.pipeIn i, .descriptor (C.pipeOut i)] ++ slotsReleased d i j)
  | freeShared => setsReleased C d C.nCores
  | returned => setsReleased C d C.nCores ++ sharedReleased d

def joined (n : ℕ) : Cleanup → ℕ
  | looping => 0
  | notify i => i
  | closeWrite i => i
  | join i => i
  | closeRead i => i + 1
  | closeSlot i _ => i + 1
  | freeShared => n
  | returned => n

def Placed (closed : ℕ → Bool) : Cleanup → Prop
  | notify i => i < C.nCores
  | closeWrite i => i < C.nCores
  | join i => i < C.nCores ∧ closed i = true
  | closeRead i => i < C.nCores
  | closeSlot i j => i < C.nCores ∧ 0 < j ∧ j ≤ (d.pollSets i).size
  | _ => True

end Cleanup

variable {C d} {d' : Data} {closed : ℕ → Bool} {i j n : ℕ}

lemma slotsReleased_congr (h : d'.pollSets i = d.pollSets i) :
    slotsReleased d' i j = slotsReleased d i j := by
  unfold slotsReleased slotReleased Data.activeUser
  rw [h]

lemma setsReleased_congr (h : ∀ k < i, d'.pollSets k = d.pollSets k) :
    setsReleased C d' i = setsReleased C d i := by
  apply List.flatMap_congr
  intro k hk
  have hset := h k (List.mem_range.mp hk)
  rw [setReleased, setReleased, slotsReleased_congr hset, hset]

lemma setsReleased_succ (i : ℕ) :
    setsReleased C d (i + 1) = setsReleased C d i ++ setReleased C d i := by
  rw [setsReleased, List.range_succ, List.flatMap_append, List.flatMap_singleton]
  rfl

lemma slotsReleased_succ (hj : 0 < j) :
    slotsReleased d i (j + 1) = slotsReleased d i j ++ slotReleased d i j := by
  obtain ⟨k, rfl⟩ := Nat.exists_eq_add_of_lt hj
  simp only [Nat.zero_add, slotsReleased, Nat.add_sub_cancel]
  rw [List.range'_concat, List.flatMap_append, List.flatMap_singleton, Nat.one_mul, Nat.add_comm 1 k]

lemma sofar_congr {c : Cleanup} (h : ∀ k < c.joined C.nCores, d'.pollSets k = d.pollSets k)
    (hc : c ≠ .returned) : c.sofar C d' = c.sofar C d := by
  cases c with
  | looping => rfl
  | returned => exact absurd rfl hc
  | closeSlot i j =>
    have hbefore := setsReleased_congr (C := C) fun k (hk : k < i) => h k (Nat.lt_succ_of_lt hk)
    rw [Cleanup.sofar, Cleanup.sofar, hbefore, slotsReleased_congr (h i (Nat.lt_succ_self i))]
  | closeRead i =>
    rw [Cleanup.sofar, Cleanup.sofar, setsReleased_congr fun k hk => h k (Nat.lt_succ_of_lt hk)]
  | join i => exact congrArg (· ++ [.pipeIn i]) (setsReleased_congr h)
  | notify | closeWrite | freeShared => exact setsReleased_congr h

lemma sofar_cleanupFrom (d : Data) (closed : ℕ → Bool) (h : i ≤ C.nCores) :
    (cleanupFrom C.nCores i).sofar C d = setsReleased C d i ∧
      (cleanupFrom C.nCores i).joined C.nCores = i ∧ (cleanupFrom C.nCores i).Placed C d closed ∧
        cleanupFrom C.nCores i ≠ .looping := by
  rw [cleanupFrom]
  split_ifs with hi
  · exact ⟨rfl, rfl, hi, by rintro ⟨⟩⟩
  · obtain rfl : i = C.nCores := le_antisymm h (not_lt.mp hi)
    exact ⟨rfl, rfl, trivial, by rintro ⟨⟩⟩

end Order

namespace Process

variable {C : Config} {s s' : Process C} {w : Fin C.nCores} {a : Actor C.nCores × Oracle}

structure Sound (s : Process C) : Prop where
  reachable : Reachable C s.threads
  atTop : ∀ w, s.passed (.worker w) = true → s.threads.pc (.worker w) = .top
  resting : ∀ w : Fin C.nCores, s.ended w = true → (s.threads.pc (.worker w)).Resting
  stopping : s.cleanup ≠ .looping → s.sigintReceived = true ∧ s.threads.pc .main = .main .accepting
  joined : ∀ k < s.cleanup.joined C.nCores, s.ended k = true
  placed : s.cleanup.Placed C s.threads.data s.closed
  released : s.released = s.cleanup.sofar C s.threads.data

lemma start_sound (C : Config) : (start C).Sound := by
  refine ⟨.init, ?_, ?_, fun h => absurd rfl h, ?_, trivial, rfl⟩
  · exact fun _ h => absurd h Bool.false_ne_true
  · exact fun _ h => absurd h Bool.false_ne_true
  · exact fun k hk => absurd hk (Nat.not_lt_zero k)

namespace Sound

lemma pollSets_of_work {threads : Server C} {o : Oracle} (h : s.Sound) (hended : s.ended w = false)
    (hstep : (server C).step s.threads (.worker w) o = .next threads) :
    ∀ k < s.cleanup.joined C.nCores, threads.data.pollSets k = s.threads.data.pollSets k := by
  intro k hk
  obtain ⟨d', pc', hcode, rfl, -⟩ := worker_step hstep
  have hnet := (workerCode_step hcode).net ((Reachable.local h.reachable).facts w)
  apply hnet.pollSets_ne
  rintro rfl
  rw [h.joined _ hk] at hended
  cases hended

lemma work {threads : Server C} {o : Oracle} {passed : Thread C.nCores → Bool} {bytes : ℕ → ℕ}
    (h : s.Sound) (hended : s.ended w = false)
    (hstep : (server C).step s.threads (.worker w) o = .next threads)
    (hpassed : passed (.worker w) = true →
      s.passed (.worker w) = true ∧ s.threads.pc (.worker w) ≠ .top)
    (hothers : ∀ v, v ≠ w → passed (.worker v) = s.passed (.worker v)) :
    Sound { s with threads, passed, bytes } := by
  have hsets := h.pollSets_of_work hended hstep
  have hpc : ∀ v, v ≠ w → threads.pc (.worker v) = s.threads.pc (.worker v) :=
    fun v hv => Program.step_pc_ne hstep (by simpa using hv)
  refine ⟨h.reachable.step hstep, fun v hv => ?_, fun v hv => ?_, fun hc => ?_, h.joined, ?_, ?_⟩
  · by_cases hvw : v = w
    · subst hvw
      obtain ⟨hp, htop⟩ := hpassed hv
      exact absurd (h.atTop v hp) htop
    · exact (hpc v hvw).trans (h.atTop v ((hothers v hvw).symm.trans hv))
  · have hvw : v ≠ w := by
      rintro rfl
      exact Bool.false_ne_true (hended.symm.trans hv)
    have hrest := h.resting v hv
    rwa [← hpc v hvw] at hrest
  · exact ⟨(h.stopping hc).1, (Program.step_pc_ne hstep (by simp)).trans (h.stopping hc).2⟩
  · have hplaced := h.placed
    change s.cleanup.Placed C threads.data s.closed
    cases hc : s.cleanup with
    | closeSlot i j =>
      rw [hc] at hplaced hsets
      rw [Cleanup.Placed, hsets i (Nat.lt_succ_self i)]
      exact hplaced
    | _ =>
      rw [hc] at hplaced
      exact hplaced
  · have hreturned : s.cleanup ≠ .returned := by
      intro hc
      have hw : s.ended w = true := h.joined w (by rw [hc]; exact w.isLt)
      rw [hw] at hended
      cases hended
    exact h.released.trans (sofar_congr hsets hreturned).symm

lemma leave (h : s.Sound)
    (hrest : (s.threads.pc (.worker w)).Resting) : (s.leave w).Sound := by
  refine ⟨h.reachable, h.atTop, fun v hv => ?_, h.stopping, fun k hk => ?_, h.placed, h.released⟩
  · by_cases hvw : v = w
    · rwa [hvw]
    · rw [Process.leave] at hv
      exact h.resting v ((update_of_ne (by simpa [Fin.ext_iff] using hvw) _ _).symm.trans hv)
  · rw [Process.leave]
    by_cases hkw : k = w
    · rw [hkw]
      exact update_self ..
    · exact (update_of_ne hkw _ _).trans (h.joined k hk)

lemma moved {cleanup : Cleanup} {released : List Resource} {bytes : ℕ → ℕ} {closed : ℕ → Bool}
    (h : s.Sound) (hmain : s.sigintReceived = true ∧ s.threads.pc .main = .main .accepting)
    (hjoined : ∀ k < cleanup.joined C.nCores, s.ended k = true)
    (hplaced : cleanup.Placed C s.threads.data closed)
    (hreleased : released = cleanup.sofar C s.threads.data) :
    Sound { s with cleanup, released, bytes, closed } :=
  ⟨h.reachable, h.atTop, h.resting, fun _ => hmain, hjoined, hplaced, hreleased⟩

lemma clean (h : s.Sound) (hturn : s.cleanupTurn s.cleanup = .next s') : s'.Sound := by
  have hpoll := (Reachable.local h.reachable).poll
  have hjoined := h.joined
  have hplaced := h.placed
  have hreleased := h.released
  have hmain := h.stopping
  cases hc : s.cleanup with
  | looping | returned =>
    rw [hc] at hturn
    cases hturn
  | notify i =>
    rw [hc] at hturn hjoined hplaced hreleased hmain
    cases hturn
    exact h.moved (hmain (by rintro ⟨⟩)) hjoined hplaced hreleased
  | closeWrite i =>
    rw [hc] at hturn hjoined hplaced hreleased hmain
    cases hturn
    refine h.moved (hmain (by rintro ⟨⟩)) hjoined ⟨hplaced, update_self ..⟩ ?_
    rw [hreleased]
    rfl
  | join i =>
    rw [hc] at hturn hjoined hplaced hreleased hmain
    simp only [cleanupTurn] at hturn
    split_ifs at hturn with hended
    cases hturn
    refine h.moved (hmain (by rintro ⟨⟩)) (fun k hk => ?_) hplaced.1 hreleased
    rcases Nat.lt_succ_iff_lt_or_eq.mp hk with hlt | rfl
    · exact hjoined k hlt
    · exact hended
  | closeRead i =>
    rw [hc] at hturn hjoined hplaced hreleased hmain
    cases hturn
    refine h.moved (hmain (by rintro ⟨⟩)) hjoined ⟨hplaced, Nat.one_pos, (hpoll i).pos⟩ ?_
    rw [hreleased, Cleanup.sofar, Cleanup.sofar, List.append_assoc]
    rfl
  | closeSlot i j =>
    rw [hc] at hturn hjoined hplaced hreleased hmain
    obtain ⟨hi, hj, hle⟩ := hplaced
    simp only [cleanupTurn] at hturn
    split_ifs at hturn with hlt
    · cases hturn
      refine h.moved (hmain (by rintro ⟨⟩)) hjoined ⟨hi, Nat.succ_pos j, hlt⟩ ?_
      rw [hreleased, Cleanup.sofar, Cleanup.sofar, slotsReleased_succ hj]
      simp only [List.append_assoc]
    · cases hturn
      obtain ⟨hsofar, hnext, hplace, -⟩ := sofar_cleanupFrom s.threads.data s.closed
        (show i + 1 ≤ C.nCores from hi)
      have hj : j = (s.threads.data.pollSets i).size := le_antisymm hle (not_lt.mp hlt)
      refine h.moved (hmain (by rintro ⟨⟩)) (fun k hk => hjoined k (by rwa [hnext] at hk)) hplace ?_
      rw [hreleased, hsofar, setsReleased_succ, Cleanup.sofar, setReleased, ← hj]
      simp only [List.append_assoc]
  | freeShared =>
    rw [hc] at hturn hjoined hplaced hreleased hmain
    cases hturn
    refine h.moved (hmain (by rintro ⟨⟩)) hjoined trivial ?_
    rw [hreleased]
    rfl

end Sound

lemma Step.sound (hstep : s.Step s') (h : s.Sound) : s'.Sound := by
  cases hstep with
  | sigint hsigint => exact ⟨h.reachable, h.atTop, h.resting, fun hc => ⟨rfl, (h.stopping hc).2⟩, h.joined,
      h.placed, h.released⟩
  | @check w hended htop hsigint =>
    refine ⟨h.reachable, fun v hv => ?_, h.resting, h.stopping, h.joined, h.placed, h.released⟩
    by_cases hvw : v = w
    · rw [hvw]
      exact htop
    · exact h.atTop v ((update_of_ne (by simpa using hvw) _ _).symm.trans hv)
  | work hended hstep htop hpassed hothers => exact h.work hended hstep hpassed hothers
  | leave hended hsigint hrest => exact h.leave hrest
  | @loop o threads passed bytes hloop hstep hothers =>
    have hpc := main_pc hstep
    refine ⟨h.reachable.step hstep, fun v hv => ?_, fun v hv => ?_, fun hc => absurd hloop hc, h.joined,
      ?_, ?_⟩
    · exact (hpc v).trans (h.atTop v ((hothers v).symm.trans hv))
    · have hrest := h.resting v hv
      rwa [← hpc v] at hrest
    · change s.cleanup.Placed C threads.data s.closed
      rw [hloop]
      trivial
    · change s.released = s.cleanup.sofar C threads.data
      rw [h.released, hloop]
      rfl
  | again hloop hothers =>
    exact ⟨h.reachable, fun v hv => h.atTop v ((hothers v).symm.trans hv), h.resting, h.stopping,
      h.joined, h.placed, h.released⟩
  | enter hloop hsigint hpc =>
    obtain ⟨hsofar, hjoined, hplace, -⟩ := sofar_cleanupFrom s.threads.data s.closed
      (Nat.zero_le C.nCores)
    refine h.moved ⟨hsigint, hpc⟩ (fun k hk => ?_) hplace ?_
    · rw [hjoined] at hk
      exact absurd hk (Nat.not_lt_zero k)
    · rw [hsofar, h.released, hloop]
      rfl
  | clean hturn => exact h.clean hturn

lemma Reached.sound (h : s.Reached) : s.Sound := by
  obtain ⟨l, hl⟩ := h
  exact follow_invariant (fun _ _ _ hs hturn => (turn_step hturn).sound hs) (start_sound C) hl

end Process

end SystemsLab.Reservation
