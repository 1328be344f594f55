import SystemsLab.Shell.Reaping
import SystemsLab.Shell.Infos
import Mathlib.Logic.Relation

namespace SystemsLab.Shell

open Effects

/-- The rest of the body of the inner loop of `handle_pending_sigchld`. -/
def updateJob (r : Ref) (process : Process) : ShellM Unit := do
  let job ← deref r
  let tableJob := decide (job.id > 0)
  modifyJob r (·.setJobState (some process))
  removeIfCompleted tableJob r

lemma reapAll_cons (info : SigInfo) (reports : List SigInfo) :
    reapAll (info :: reports) = (do
      match ← waitForAnyProcess (some info) with
      | none => return ()
      | some (r, process) => do
        updateJob r process
        reapAll reports) := by
  rw [reapAll]
  congr 1
  funext o
  cases o with
  | none => rfl
  | some x => simp only [updateJob, bind_assoc]

/-- What the loop of `wait_for_processes` finds out about the job: the state to return if it has
not to wait any longer. -/
def lookAt (jobLoc : ℕ) : ShellM (Option JobState) := do
  match ← slot jobLoc with
  | none => return some .done
  | some r => do
    if ← hasCompleted (some r) then return some (← deref r).state
    else if (← deref r).hasStopped then return some (← deref r).state
    else return none

lemma waitAt_cons (jobLoc : ℕ) (rounds : List (List SigInfo))
    (wakes : List (List (List SigInfo))) :
    waitAt jobLoc (rounds :: wakes) = (do
      handlePendingSigchld rounds
      match ← lookAt jobLoc with
      | some state => return state
      | none => waitAt jobLoc wakes) := by
  rw [waitAt, lookAt]
  simp only [bind_assoc]
  congr 1
  funext _
  congr 1
  funext o
  cases o with
  | none => rfl
  | some r =>
    simp only [bind_assoc]
    congr 1
    funext completed
    cases completed with
    | true => simp only [if_true, bind_assoc, pure_bind]
    | false =>
      simp only [Bool.false_eq_true, if_false, bind_assoc]
      congr 1
      funext job
      split_ifs
      · simp only [bind_assoc, pure_bind]
      · rfl

/-- Where the shell is. `caller` is the slot that `wait_for_processes` looks at if it has called
`handle_pending_sigchld`. -/
inductive Pc
  | elsewhere
  | clear (caller : Option ℕ)
  | waitid (caller : Option ℕ)
  | record (caller : Option ℕ) (info : SigInfo)
  | update (caller : Option ℕ) (r : Ref) (process : Process)
  | again (caller : Option ℕ)
  | handled (caller : Option ℕ)
  | block (jobLoc : ℕ)
  | test (jobLoc : ℕ)
  | look (jobLoc : ℕ)
  | suspend (jobLoc : ℕ)
  | suspended (jobLoc : ℕ)
  | unblock (state : JobState)

/-- `waitable` are the child events that `waitid` can report, `sigPending` says that `SIGCHLD` is
pending, `blocked` that it is in the signal mask, and `suspendMask` that it is in `suspend_mask`.
`happened` and `recorded` are the child events so far and those written to a process, and have no
counterpart in the source. -/
structure Machine where
  shell : State
  pc : Pc
  pendingSigchld : Bool
  sigPending : Bool
  blocked : Bool
  suspendMask : Bool
  waitable : List SigInfo
  happened : List SigInfo
  recorded : List (Ref × SigInfo)

def Machine.start (blocked : Bool) : Machine :=
  ⟨initialState, .elsewhere, false, false, blocked, blocked, [], [], []⟩

def Machine.masked (m : Machine) : Bool :=
  match m.pc with
  | .suspended _ => m.suspendMask
  | _ => m.blocked

/-- `sigsuspend` returns after a signal handler. -/
def Pc.interrupted : Pc → Pc
  | .suspended jobLoc => .test jobLoc
  | pc => pc

/-- The test of the outer loop of `handle_pending_sigchld`. -/
def Pc.afterAgain (caller : Option ℕ) (pendingSigchld : Bool) : Pc :=
  if pendingSigchld then .clear caller else .handled caller

def Pc.afterHandled : Option ℕ → Pc
  | none => .elsewhere
  | some jobLoc => .look jobLoc

def Pc.afterTest (jobLoc : ℕ) (pendingSigchld : Bool) : Pc :=
  if pendingSigchld then .clear (some jobLoc) else .look jobLoc

def Pc.afterLook (jobLoc : ℕ) : Option JobState → Pc
  | none => .suspend jobLoc
  | some state => .unblock state

/-- A child event, the delivery of a signal, or a step of the shell. Events of one child are
reported in the order in which they happened. -/
inductive Step (m : Machine) : Machine → Prop
  | event (info : SigInfo) (hpid : 0 < info.siPid) : Step m
      { m with
        waitable := m.waitable ++ [info], happened := m.happened ++ [info], sigPending := true }
  | deliver (hsig : m.sigPending = true) (hmask : m.masked = false) : Step m
      { m with sigPending := false, pendingSigchld := true, pc := m.pc.interrupted }
  | otherSignal : Step m { m with pc := m.pc.interrupted }
  | elsewhere {s' : State} (hpc : m.pc = .elsewhere) (hs : Remembers m.shell s') :
      Step m { m with shell := s' }
  | callHandle (hpc : m.pc = .elsewhere) : Step m { m with pc := .clear none }
  | callWait {r : Ref} {job : Job} (hpc : m.pc = .elsewhere) (hr : m.shell.heap r = some job) :
      Step m { m with pc := .block job.id }
  | clear {caller : Option ℕ} (hpc : m.pc = .clear caller) :
      Step m { m with pendingSigchld := false, pc := .waitid caller }
  | noEvent {caller : Option ℕ} (hpc : m.pc = .waitid caller) (hnone : m.waitable = []) :
      Step m { m with pc := .again caller }
  | report {caller : Option ℕ} {info : SigInfo} {before after : List SigInfo}
      (hpc : m.pc = .waitid caller) (hsome : m.waitable = before ++ info :: after)
      (hfirst : ∀ e ∈ before, e.siPid ≠ info.siPid) :
      Step m { m with waitable := before ++ after, pc := .record caller info }
  | record {caller : Option ℕ} {info : SigInfo} {r : Ref} {p : Process} {s' : State}
      (hpc : m.pc = .record caller info)
      (hrun : waitForAnyProcess (some info) m.shell = .ok (some (r, p)) s') :
      Step m
        { m with shell := s', recorded := m.recorded ++ [(r, p.info)], pc := .update caller r p }
  | notFound {caller : Option ℕ} {info : SigInfo} {s' : State} (hpc : m.pc = .record caller info)
      (hrun : waitForAnyProcess (some info) m.shell = .ok none s') :
      Step m { m with shell := s', pc := .again caller }
  | update {caller : Option ℕ} {r : Ref} {p : Process} {s' : State}
      (hpc : m.pc = .update caller r p) (hrun : updateJob r p m.shell = .ok () s') :
      Step m { m with shell := s', pc := .waitid caller }
  | again {caller : Option ℕ} (hpc : m.pc = .again caller) :
      Step m { m with pc := .afterAgain caller m.pendingSigchld }
  | handled {caller : Option ℕ} (hpc : m.pc = .handled caller) :
      Step m { m with pc := .afterHandled caller }
  | block {jobLoc : ℕ} (hpc : m.pc = .block jobLoc) :
      Step m { m with blocked := true, suspendMask := m.blocked, pc := .test jobLoc }
  | test {jobLoc : ℕ} (hpc : m.pc = .test jobLoc) :
      Step m { m with pc := .afterTest jobLoc m.pendingSigchld }
  | look {jobLoc : ℕ} {o : Option JobState} {s' : State} (hpc : m.pc = .look jobLoc)
      (hrun : lookAt jobLoc m.shell = .ok o s') :
      Step m { m with shell := s', pc := .afterLook jobLoc o }
  | suspend {jobLoc : ℕ} (hpc : m.pc = .suspend jobLoc) :
      Step m { m with pc := .suspended jobLoc }
  | unblock {state : JobState} (hpc : m.pc = .unblock state) :
      Step m { m with blocked := m.suspendMask, pc := .elsewhere }

def Machine.Found (m : Machine) : Prop :=
  ∀ caller info, m.pc = .record caller info →
    ∃ r, findJobByPid info.siPid m.shell = .ok (some r) m.shell

def FoundStep (m m' : Machine) : Prop := m.Found ∧ Step m m'

def Pc.draining : Pc → Bool
  | .clear _ | .waitid _ | .record _ _ | .update _ _ _ => true
  | _ => false

def Pc.waits : Pc → Bool
  | .clear caller | .waitid caller | .record caller _ | .update caller _ _ | .again caller
  | .handled caller => caller.isSome
  | .test _ | .look _ | .suspend _ | .suspended _ | .unblock _ => true
  | .elsewhere | .block _ => false

def Pc.quiet : Pc → Bool
  | .handled caller => caller.isSome
  | .look _ | .suspend _ | .suspended _ => true
  | _ => false

def Pc.reported : Pc → List SigInfo
  | .record _ info => [info]
  | _ => []

structure Machine.Alert (m : Machine) : Prop where
  told : m.waitable ≠ [] →
    m.sigPending = true ∨ m.pendingSigchld = true ∨ m.pc.draining = true
  blocked : m.pc.waits = true → m.blocked = true
  quiet : m.pc.quiet = true → m.pendingSigchld = false

variable {m m' : Machine}

lemma start_alert (blocked : Bool) : (Machine.start blocked).Alert :=
  ⟨fun h => absurd rfl h, nofun, nofun⟩

lemma Machine.Alert.goto (h : m.Alert) {pc : Pc} (s : State) (recorded : List (Ref × SigInfo))
    (hdrain : m.pc.draining = true → pc.draining = true ∨ m.waitable = [])
    (hwaits : pc.waits = true → m.pc.waits = true)
    (hquiet : pc.quiet = true → m.pc.quiet = true ∨ m.pendingSigchld = false) :
    Machine.Alert { m with shell := s, recorded := recorded, pc := pc } where
  told hne := by
    rcases h.told hne with hsig | hflag | hd
    · exact Or.inl hsig
    · exact Or.inr (Or.inl hflag)
    · rcases hdrain hd with hd | hnil
      · exact Or.inr (Or.inr hd)
      · exact absurd hnil hne
  blocked hw := h.blocked (hwaits hw)
  quiet hq := by
    rcases hquiet hq with hq | hflag
    · exact h.quiet hq
    · exact hflag

lemma Pc.waits_of_quiet {pc : Pc} (h : pc.quiet = true) : pc.waits = true := by
  cases pc <;> first | exact h | rfl | cases h

/-- While `SIGCHLD` can be delivered, nothing relies on `pending_sigchld` being clear. -/
lemma Machine.Alert.quiet_interrupted (h : m.Alert) (hmask : m.masked = false) :
    m.pc.interrupted.quiet = false := by
  rw [Bool.eq_false_iff]
  intro hq
  cases hpc : m.pc with
  | suspended jobLoc =>
    rw [hpc] at hq
    cases hq
  | _ =>
    rw [hpc] at hq
    have hb := h.blocked (by rw [hpc]; exact Pc.waits_of_quiet hq)
    rw [Machine.masked, hpc] at hmask
    exact absurd (hb.symm.trans hmask) (by decide)

lemma Pc.interrupted_draining (pc : Pc) : pc.interrupted.draining = pc.draining := by
  cases pc <;> rfl

lemma Pc.interrupted_waits (pc : Pc) : pc.interrupted.waits = pc.waits := by
  cases pc <;> rfl

lemma Pc.quiet_of_interrupted {pc : Pc} (h : pc.interrupted.quiet = true) : pc.quiet = true := by
  cases pc <;> first | exact h | cases h

lemma ends_waitForAnyProcess_found {s : State} {info : SigInfo} {r : Ref}
    (hfound : findJobByPid info.siPid s = .ok (some r) s) :
    Ends (waitForAnyProcess (some info))
      (fun o s' => ∃ job p, s.heap r = some job ∧ getProcess job.processes info.siPid = some p ∧
        o = some (r, { p with isRunning := false, info := info }) ∧
        s' = s.put r (job.takeEvent info).2) (fun _ _ => False) s := by
  obtain ⟨-, hjob⟩ := (ends_findJobByPid info.siPid).ok hfound
  obtain ⟨k, job, -, hr, hp⟩ := hjob r rfl
  obtain ⟨p, hp⟩ := Option.isSome_iff_exists.mp hp
  simp only [waitForAnyProcess, ends_bind]
  apply ends_of_ok hfound
  rw [ends_bind, ends_deref hr, ends_bind, ends_store, ends_pure]
  refine ⟨job, p, hr, hp, ?_, rfl⟩
  rw [Job.takeEvent, hp]
  rfl

lemma Machine.Found.not_missed (h : m.Found) {caller : Option ℕ} {info : SigInfo} {s' : State}
    (hpc : m.pc = .record caller info) :
    waitForAnyProcess (some info) m.shell ≠ .ok none s' := by
  intro hrun
  obtain ⟨r, hfound⟩ := h caller info hpc
  obtain ⟨job, p, -, -, ho, -⟩ := (ends_waitForAnyProcess_found hfound).ok hrun
  cases ho

lemma Step.alert (hstep : Step m m') (hfound : m.Found) (h : m.Alert) : m'.Alert := by
  cases hstep with
  | event info hpid => exact ⟨fun _ => Or.inl rfl, h.blocked, h.quiet⟩
  | deliver hsig hmask =>
    refine ⟨fun _ => Or.inr (Or.inl rfl), fun hw => ?_, fun hq => ?_⟩
    · rw [Pc.interrupted_waits] at hw
      exact h.blocked hw
    · rw [h.quiet_interrupted hmask] at hq
      cases hq
  | otherSignal =>
    apply h.goto m.shell m.recorded
    · exact fun hd => Or.inl ((Pc.interrupted_draining m.pc).trans hd)
    · exact fun hw => (Pc.interrupted_waits m.pc).symm.trans hw
    · exact fun hq => Or.inl (Pc.quiet_of_interrupted hq)
  | elsewhere hpc hs => exact ⟨h.told, h.blocked, h.quiet⟩
  | callHandle hpc => exact h.goto m.shell m.recorded (fun _ => Or.inl rfl) nofun nofun
  | callWait hpc hr =>
    apply h.goto m.shell m.recorded
    · rw [hpc]
      exact nofun
    · exact nofun
    · exact nofun
  | @clear caller hpc =>
    refine ⟨fun _ => Or.inr (Or.inr rfl), fun hw => ?_, fun _ => rfl⟩
    exact h.blocked (by rw [hpc]; exact hw)
  | @noEvent caller hpc hnone =>
    apply h.goto m.shell m.recorded
    · exact fun _ => Or.inr hnone
    · rw [hpc]
      exact fun hw => hw
    · exact nofun
  | @report caller info before after hpc hsome hfirst =>
    refine ⟨fun _ => Or.inr (Or.inr rfl), fun hw => ?_, nofun⟩
    exact h.blocked (by rw [hpc]; exact hw)
  | record hpc hrun =>
    apply h.goto
    · exact fun _ => Or.inl rfl
    · rw [hpc]
      exact fun hw => hw
    · exact nofun
  | notFound hpc hrun => exact absurd hrun (hfound.not_missed hpc)
  | update hpc hrun =>
    apply h.goto _ m.recorded
    · exact fun _ => Or.inl rfl
    · rw [hpc]
      exact fun hw => hw
    · exact nofun
  | again hpc =>
    apply h.goto m.shell m.recorded
    · rw [hpc]
      exact nofun
    · rw [hpc, Pc.afterAgain]
      split_ifs <;> exact fun hw => hw
    · rw [Pc.afterAgain]
      split_ifs with hflag
      · exact nofun
      · exact fun _ => Or.inr (Bool.eq_false_iff.mpr hflag)
  | @handled caller hpc =>
    apply h.goto m.shell m.recorded
    · rw [hpc]
      exact nofun
    · rw [hpc]
      cases caller <;> exact fun hw => hw
    · rw [hpc]
      cases caller <;> exact fun hq => Or.inl hq
  | block hpc =>
    refine ⟨fun hne => ?_, fun _ => rfl, nofun⟩
    have htold := h.told hne
    rwa [hpc] at htold
  | test hpc =>
    apply h.goto m.shell m.recorded
    · rw [hpc]
      exact nofun
    · rw [hpc]
      exact fun _ => rfl
    · rw [Pc.afterTest]
      split_ifs with hflag
      · exact nofun
      · exact fun _ => Or.inr (Bool.eq_false_iff.mpr hflag)
  | @look jobLoc o s' hpc hrun =>
    apply h.goto _ m.recorded
    · rw [hpc]
      exact nofun
    · rw [hpc]
      exact fun _ => rfl
    · rw [hpc]
      exact fun _ => Or.inl rfl
  | suspend hpc =>
    apply h.goto m.shell m.recorded
    · rw [hpc]
      exact nofun
    · rw [hpc]
      exact fun _ => rfl
    · rw [hpc]
      exact fun _ => Or.inl rfl
  | unblock hpc =>
    refine ⟨fun hne => ?_, nofun, nofun⟩
    have htold := h.told hne
    rwa [hpc] at htold

def Machine.Ordered (m : Machine) : Prop :=
  ∀ pid, m.happened.filter (·.siPid = pid) =
    (m.recorded.map Prod.snd ++ (m.pc.reported ++ m.waitable)).filter (·.siPid = pid)

lemma filter_report {info : SigInfo} {before after : List SigInfo}
    (hfirst : ∀ e ∈ before, e.siPid ≠ info.siPid) (pid : ℤ) :
    (before ++ info :: after).filter (·.siPid = pid) =
      ([info] ++ (before ++ after)).filter (·.siPid = pid) := by
  rw [List.filter_append, List.filter_cons, List.singleton_append, List.filter_cons,
    List.filter_append]
  split_ifs with hpid
  · have hnone : before.filter (·.siPid = pid) = [] := by
      rw [List.filter_eq_nil_iff]
      intro e he
      rw [decide_eq_true_eq] at hpid ⊢
      exact hpid ▸ hfirst e he
    rw [hnone]
    rfl
  · rfl

lemma Machine.Ordered.goto (h : m.Ordered) {pc : Pc} (s : State)
    (sigPending flag blocked mask : Bool) (hpc : pc.reported = m.pc.reported) :
    Machine.Ordered ⟨s, pc, flag, sigPending, blocked, mask, m.waitable, m.happened, m.recorded⟩ := by
  intro pid
  change _ = (m.recorded.map Prod.snd ++ (pc.reported ++ m.waitable)).filter _
  rw [hpc]
  exact h pid

lemma Step.ordered (hstep : Step m m') (hfound : m.Found) (h : m.Ordered) : m'.Ordered := by
  cases hstep with
  | event info hpid =>
    intro pid
    have hp := h pid
    simp only [List.filter_append] at hp ⊢
    rw [hp, List.append_assoc, List.append_assoc]
  | deliver hsig hmask =>
    apply h.goto
    cases m.pc <;> rfl
  | otherSignal =>
    apply h.goto
    cases m.pc <;> rfl
  | @report caller info before after hpc hsome hfirst =>
    intro pid
    have hp := h pid
    rw [hpc, hsome] at hp
    change _ = (m.recorded.map Prod.snd ++ (before ++ info :: after)).filter _ at hp
    rw [List.filter_append, filter_report hfirst pid, ← List.filter_append] at hp
    exact hp
  | @record caller info r p s' hpc hrun =>
    obtain ⟨q, hq⟩ := hfound caller info hpc
    obtain ⟨job, p', -, -, ho, -⟩ := (ends_waitForAnyProcess_found hq).ok hrun
    have hinfo : p.info = info := congrArg (·.info) (congrArg Prod.snd (Option.some.inj ho))
    intro pid
    have hp := h pid
    rw [hpc] at hp
    rw [hp, hinfo, List.map_append, List.append_assoc]
    rfl
  | notFound hpc hrun => exact absurd hrun (hfound.not_missed hpc)
  | elsewhere hpc hs => exact h.goto _ _ _ _ _ rfl
  | callHandle hpc | callWait hpc hr | clear hpc | noEvent hpc hnone | update hpc hrun | block hpc
  | suspend hpc | unblock hpc =>
    apply h.goto
    rw [hpc]
    rfl
  | again hpc | test hpc =>
    apply h.goto
    rw [hpc]
    cases m.pendingSigchld <;> rfl
  | @handled caller hpc =>
    apply h.goto
    rw [hpc]
    cases caller <;> rfl
  | @look jobLoc o s' hpc hrun =>
    apply h.goto
    rw [hpc]
    cases o <;> rfl

def lastRecord (recorded : List (Ref × SigInfo)) (r : Ref) (pid : ℤ) : Option SigInfo :=
  ((recorded.filter fun x => x.1 = r ∧ x.2.siPid = pid).getLast?).map Prod.snd

structure Machine.Stored (m : Machine) : Prop where
  fresh : ∀ r, m.shell.next ≤ r → m.shell.heap r = none
  bound : ∀ x ∈ m.recorded, x.1 < m.shell.next
  infos : ∀ {r job pid e}, m.shell.heap r = some job → lastRecord m.recorded r pid = some e →
    ∃ p, getProcess job.processes pid = some p ∧ p.info = e

lemma lastRecord_mem {recorded : List (Ref × SigInfo)} {r : Ref} {pid : ℤ} {e : SigInfo}
    (h : lastRecord recorded r pid = some e) : (r, e) ∈ recorded := by
  obtain ⟨x, hx, rfl⟩ := Option.map_eq_some_iff.mp h
  have hmem := List.mem_filter.mp (List.mem_of_getLast? hx)
  obtain ⟨rfl, -⟩ := of_decide_eq_true hmem.2
  exact hmem.1

lemma lastRecord_concat (recorded : List (Ref × SigInfo)) (r q : Ref) (e : SigInfo) (pid : ℤ) :
    lastRecord (recorded ++ [(q, e)]) r pid =
      if q = r ∧ e.siPid = pid then some e else lastRecord recorded r pid := by
  rw [lastRecord, List.filter_append]
  split_ifs with hmatch
  · rw [List.filter_cons_of_pos (by exact decide_eq_true hmatch), List.filter_nil,
      List.getLast?_concat]
    rfl
  · rw [List.filter_cons_of_neg (by exact fun h => hmatch (of_decide_eq_true h)), List.filter_nil,
      List.append_nil]
    rfl

lemma Machine.Stored.remembers (h : m.Stored) {s : State} (hs : Remembers m.shell s) (pc : Pc)
    (sigPending flag blocked mask : Bool) (waitable happened : List SigInfo) :
    Machine.Stored ⟨s, pc, flag, sigPending, blocked, mask, waitable, happened, m.recorded⟩ where
  fresh := hs.fresh h.fresh
  bound x hx := (h.bound x hx).trans_le hs.next_le
  infos {r job' pid e} hr hlast := by
    obtain ⟨job, hj, hkept⟩ := hs.heap r job' (h.bound _ (lastRecord_mem hlast)) hr
    obtain ⟨p, hp, hinfo⟩ := h.infos hj hlast
    obtain ⟨p', hp', hinfo'⟩ := hkept pid p hp
    exact ⟨p', hp', hinfo'.trans hinfo⟩

lemma Machine.Stored.put (h : m.Stored) {r : Ref} {job : Job} {p : Process} {info : SigInfo}
    (hr : m.shell.heap r = some job) (hp : getProcess job.processes info.siPid = some p) (pc : Pc)
    (sigPending flag blocked mask : Bool) (waitable happened : List SigInfo) :
    Machine.Stored ⟨m.shell.put r (job.takeEvent info).2, pc, flag, sigPending, blocked, mask,
      waitable, happened, m.recorded ++ [(r, info)]⟩ where
  fresh q hq := by
    have hne : q ≠ r := by
      rintro rfl
      rw [h.fresh q hq] at hr
      cases hr
    rw [State.put_of_ne hne]
    exact h.fresh q hq
  bound x hx := by
    rcases List.mem_append.mp hx with hx | hx
    · exact h.bound x hx
    · obtain rfl := List.mem_singleton.mp hx
      by_contra hle
      rw [h.fresh r (Nat.le_of_not_lt hle)] at hr
      cases hr
  infos {q job' pid e} hj hlast := by
    rw [lastRecord_concat] at hlast
    by_cases hqr : q = r
    · subst hqr
      rw [State.put_self, Option.some.injEq] at hj
      subst hj
      rw [takeEvent_processes hp, getProcess_recordInfo]
      by_cases hpid : pid = info.siPid
      · subst hpid
        rw [if_pos ⟨rfl, rfl⟩, Option.some.injEq] at hlast
        subst hlast
        rw [if_pos rfl, hp]
        exact ⟨_, rfl, rfl⟩
      · rw [if_neg fun hmatch => hpid hmatch.2.symm] at hlast
        rw [if_neg hpid]
        exact h.infos hr hlast
    · rw [State.put_of_ne hqr] at hj
      rw [if_neg fun hmatch => hqr hmatch.1.symm] at hlast
      exact h.infos hj hlast

lemma moves_updateJob (r : Ref) (process : Process) : Moves Remembers (updateJob r process) := by
  apply steady_remembers.bind (steady_remembers.reads (reads_deref r))
  intro job
  apply steady_remembers.bind (moves_modifyJob fun job => job.remembered_setJobState (some process))
  exact fun _ => moves_removeIfCompleted _ r

lemma moves_lookAt (jobLoc : ℕ) : Moves Remembers (lookAt jobLoc) := by
  apply steady_remembers.bind (steady_remembers.reads (reads_slot jobLoc))
  intro o
  cases o with
  | none => exact steady_remembers.reads reads_pure
  | some r =>
    have hread : Reads (do return some (← deref r).state : ShellM (Option JobState)) :=
      (reads_deref r).bind fun _ => reads_pure
    apply steady_remembers.bind (moves_hasCompleted (some r))
    intro completed
    apply Moves.ite
    · exact steady_remembers.reads hread
    · apply steady_remembers.reads
      exact (reads_deref r).bind fun job => Reads.ite hread reads_pure

lemma Step.stored (hstep : Step m m') (hfound : m.Found) (h : m.Stored) : m'.Stored := by
  cases hstep with
  | elsewhere hpc hs => exact h.remembers hs _ _ _ _ _ _ _
  | update hpc hrun => exact h.remembers ((moves_updateJob _ _).ok hrun) _ _ _ _ _ _ _
  | look hpc hrun => exact h.remembers ((moves_lookAt _).ok hrun) _ _ _ _ _ _ _
  | notFound hpc hrun => exact absurd hrun (hfound.not_missed hpc)
  | @record caller info r p s' hpc hrun =>
    obtain ⟨q, hq⟩ := hfound caller info hpc
    obtain ⟨job, p', hr, hp', ho, rfl⟩ := (ends_waitForAnyProcess_found hq).ok hrun
    obtain ⟨rfl, rfl⟩ := Prod.mk.inj (Option.some.inj ho)
    exact h.put hr hp' _ _ _ _ _ _ _
  | _ => exact h.remembers (.refl m.shell) _ _ _ _ _ _ _

structure Machine.Sound (m : Machine) : Prop where
  alert : m.Alert
  ordered : m.Ordered
  stored : m.Stored

lemma start_sound (blocked : Bool) : (Machine.start blocked).Sound where
  alert := start_alert blocked
  ordered _ := rfl
  stored := ⟨fun _ _ => rfl, nofun, nofun⟩

lemma sound_of_run {blocked : Bool}
    (hrun : Relation.ReflTransGen FoundStep (Machine.start blocked) m) : m.Sound := by
  induction hrun with
  | refl => exact start_sound blocked
  | tail _ hstep ih =>
    exact ⟨hstep.2.alert hstep.1 ih.alert, hstep.2.ordered hstep.1 ih.ordered,
      hstep.2.stored hstep.1 ih.stored⟩

theorem no_lost_wakeup (blocked : Bool)
    (hrun : Relation.ReflTransGen FoundStep (Machine.start blocked) m) :
    (∀ jobLoc, m.pc = .suspended jobLoc → m.sigPending = false →
      m.waitable = [] ∧
      (∀ pid, m.happened.filter (·.siPid = pid) =
        (m.recorded.map Prod.snd).filter (·.siPid = pid)) ∧
      ∀ r job pid e, m.shell.heap r = some job → lastRecord m.recorded r pid = some e →
        ∃ p, getProcess job.processes pid = some p ∧ p.info = e) ∧
    ∀ caller, m.pc = .handled caller → m.pendingSigchld = false → m.sigPending = false →
      m.waitable = [] := by
  have h := sound_of_run hrun
  have hnil : m.sigPending = false → m.pendingSigchld = false → m.pc.draining = false →
      m.waitable = [] := by
    intro hsig hflag hdrain
    by_contra hne
    rcases h.alert.told hne with he | he | he
    · exact absurd (he.symm.trans hsig) (by decide)
    · exact absurd (he.symm.trans hflag) (by decide)
    · exact absurd (he.symm.trans hdrain) (by decide)
  constructor
  · intro jobLoc hpc hsig
    have hflag : m.pendingSigchld = false := h.alert.quiet (by rw [hpc]; rfl)
    have hwaitable := hnil hsig hflag (by rw [hpc]; rfl)
    refine ⟨hwaitable, fun pid => ?_, fun r job pid e => h.stored.infos⟩
    have hp := h.ordered pid
    rw [hpc, hwaitable] at hp
    rw [hp]
    exact congrArg _ (List.append_nil _)
  · intro caller hpc hflag hsig
    exact hnil hsig hflag (by rw [hpc]; rfl)

def waiting : State :=
  (initialState.alloc.put 0
    ⟨.foreground, 0, 7, [{ defaultProcess with pid := 7, isRunning := true }]⟩).setFront (some 0)

lemma remembers_waiting : Remembers initialState waiting := by
  have hput : Remembers initialState.alloc (initialState.alloc.put 0
      ⟨.foreground, 0, 7, [{ defaultProcess with pid := 7, isRunning := true }]⟩) :=
    .put State.alloc_self nofun
  exact ((Remembers.alloc initialState).trans hput).trans (.of_heap rfl rfl)

lemma findJobByPid_front {s : State} {r : Ref} {job : Job} {pid : ℤ}
    (hslot : s.jobs.table 0 = some r) (hr : s.heap r = some job)
    (hp : (getProcess job.processes pid).isSome = true) :
    findJobByPid pid s = .ok (some r) s := by
  have hends : Ends (findJobByPid pid) (fun o s' => o = some r ∧ s' = s) (fun _ _ => False) s :=
    ends_findJobFrom_found le_rfl (by decide) (Nat.zero_le _) nofun hslot hr hp
  obtain ⟨o, s', he, rfl, rfl⟩ := hends.exists_ok
  exact he

lemma waitForAnyProcess_found {s : State} {r : Ref} {job : Job} {p : Process} {info : SigInfo}
    (hfound : findJobByPid info.siPid s = .ok (some r) s) (hr : s.heap r = some job)
    (hp : getProcess job.processes info.siPid = some p) :
    waitForAnyProcess (some info) s =
      .ok (some (r, { p with isRunning := false, info := info })) (s.put r (job.takeEvent info).2) := by
  obtain ⟨o, s', he, job', p', hr', hp', rfl, rfl⟩ :=
    (ends_waitForAnyProcess_found hfound).exists_ok
  rw [hr, Option.some.injEq] at hr'
  subst hr'
  rw [hp, Option.some.injEq] at hp'
  subst hp'
  exact he

def continuedInfo : SigInfo := ⟨7, .continued, 18⟩

theorem no_lost_wakeup_continued :
    ∃ m : Machine, m.pc = .suspended 0 ∧ m.happened = [continuedInfo] ∧ m.waitable = [] := by
  have h₁ : Relation.ReflTransGen FoundStep (Machine.start false) _ :=
    .tail .refl ⟨nofun, .elsewhere rfl remembers_waiting⟩
  have h₂ := h₁.tail ⟨nofun, .callWait (r := 0) rfl rfl⟩
  have h₃ := h₂.tail ⟨nofun, .block rfl⟩
  have h₄ := h₃.tail ⟨nofun, .test rfl⟩
  have h₅ := h₄.tail ⟨nofun, .event continuedInfo (by decide)⟩
  have h₆ := h₅.tail ⟨nofun, .look rfl rfl⟩
  have h₇ := h₆.tail ⟨nofun, .suspend rfl⟩
  have h₈ := h₇.tail ⟨nofun, .deliver rfl rfl⟩
  have h₉ := h₈.tail ⟨nofun, .test rfl⟩
  have h₁₀ := h₉.tail ⟨nofun, @Step.clear _ (some 0) rfl⟩
  have h₁₁ := h₁₀.tail ⟨nofun, @Step.report _ (some 0) continuedInfo [] [] rfl rfl nofun⟩
  have h₁₂ := h₁₁.tail ⟨by
    rintro caller info ⟨⟩
    exact ⟨0, findJobByPid_front rfl rfl rfl⟩,
    .record rfl (waitForAnyProcess_found (findJobByPid_front rfl rfl rfl) rfl rfl)⟩
  have h₁₃ := h₁₂.tail ⟨nofun, .update rfl rfl⟩
  have h₁₄ := h₁₃.tail ⟨nofun, .noEvent rfl rfl⟩
  have h₁₅ := h₁₄.tail ⟨nofun, .again rfl⟩
  have h₁₆ := h₁₅.tail ⟨nofun, @Step.handled _ (some 0) rfl⟩
  have h₁₇ := h₁₆.tail ⟨nofun, .look rfl rfl⟩
  have h₁₈ := h₁₇.tail ⟨nofun, .suspend rfl⟩
  exact ⟨_, rfl, rfl, ((no_lost_wakeup false h₁₈).1 0 rfl rfl).1⟩

end SystemsLab.Shell
