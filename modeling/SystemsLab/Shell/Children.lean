import SystemsLab.Shell.Searches
import SystemsLab.Effects.Proceeding

namespace SystemsLab.Shell

open Effects Tables CLib

structure Job.Expects (job : Job) (pid : ℤ) : Prop where
  not_done : job.state ≠ .done
  grouped : 0 < job.pgid
  running : ∃ p, getProcess job.processes pid = some p ∧ p.info.siCode.isTermination = false

def Expecting (s s' : State) : Prop :=
  ∀ r job pid, s.heap r = some job → job.Expects pid → ∃ job', s'.heap r = some job' ∧ job'.Expects pid

def World.Possible (w : World) : Prop := ∀ n ∈ w.notes, n.Possible

def World.Accounted (w : World) : Prop :=
  w.Possible → ∀ pid r, w.children pid = some r → ∃ job, w.shell.heap r = some job ∧ job.Expects pid

def World.Childless (w : World) : Prop := w.Possible → ∀ pid, w.children pid = none

def Leaves (e : Stop) (w : World) : Prop := ∀ status, e = .exited status → w.Childless

def IsFault (e : Stop) : Prop := ∃ f, e = .fault f

lemma IsFault.leaves {e : Stop} {w : World} (h : IsFault e) : Leaves e w := by
  obtain ⟨f, rfl⟩ := h
  rintro status ⟨⟩

section Jobs

variable {s s' s'' : State} {r : Ref} {job job' : Job} {pid : ℤ} {info : SigInfo}

namespace Job.Expects

lemma remembered (h : job.Expects pid) (hjob : job.Remembered job') (hstate : job'.state ≠ .done)
    (hpgid : job'.pgid = job.pgid) : job'.Expects pid := by
  obtain ⟨p, hp, hp'⟩ := h.running
  obtain ⟨p', hget, hinfo⟩ := hjob pid p hp
  exact ⟨hstate, hpgid ▸ h.grouped, p', hget, hinfo ▸ hp'⟩

lemma allFinished (h : job.Expects pid) : job.allFinished = false := by
  obtain ⟨p, hp, hp'⟩ := h.running
  rw [Job.allFinished, List.all_eq_false]
  refine ⟨p, List.mem_of_find?_eq_some hp, ?_⟩
  rw [hasProcesesTerminated, hp', Bool.and_false]
  exact Bool.false_ne_true

lemma hasCompleted (h : job.Expects pid) : job.hasCompleted = (false, job) := by
  rw [Job.hasCompleted, if_neg h.not_done, h.allFinished, if_neg Bool.false_ne_true]

lemma setJobState (h : job.Expects pid) (process : Option Process) :
    (job.setJobState process).Expects pid := by
  obtain ⟨state, he, hdone, -⟩ := job.setJobState_spec process
  have hsame : job.Remembered { job with state := state } := .of_eq rfl
  rw [he]
  refine h.remembered hsame (fun hstate => ?_) rfl
  rcases hdone hstate with hd | hf
  · exact h.not_done hd
  · rw [h.allFinished] at hf
    exact Bool.false_ne_true hf

lemma takeEvent (h : job.Expects pid) (hpid : info.siCode.isTermination = true → pid ≠ info.siPid) :
    (job.takeEvent info).2.Expects pid := by
  rw [Job.takeEvent]
  cases hp : getProcess job.processes info.siPid with
  | none => exact h
  | some p =>
    have hrecorded : ({ job with processes := recordInfo info job.processes } : Job).Expects pid := by
      obtain ⟨q, hq, hrunning⟩ := h.running
      refine ⟨h.not_done, h.grouped, ?_⟩
      rw [getProcess_recordInfo]
      by_cases he : pid = info.siPid
      · rw [if_pos he, hq]
        exact ⟨_, rfl, Bool.eq_false_of_not_eq_true fun ht => hpid ht he⟩
      · rw [if_neg he]
        exact ⟨q, hq, hrunning⟩
    exact hrecorded.setJobState (some { p with isRunning := false, info := info })

lemma moveToForeground (h : job.Expects pid) : job.moveToForeground.Expects pid := by
  apply h.remembered
  · exact Job.remembered_setJobProcessState { job with state := .foreground, id := 0 } .running
  · rintro ⟨⟩
  · rfl

lemma moveToBackground (h : job.Expects pid) : job.moveToBackground.Expects pid := by
  apply h.remembered
  · exact job.remembered_setJobProcessState .running
  · rintro ⟨⟩
  · rfl

lemma startProcess (h : job.Expects pid) (pid' : ℤ) : (job.startProcess pid').Expects pid := by
  have hpgid : ¬ job.pgid = -1 := by
    have hpos := h.grouped
    omega
  apply h.remembered (job.remembered_startProcess pid') h.not_done
  exact if_neg hpgid

end Job.Expects

lemma Job.expects_startProcess (hstate : job.state ≠ .done) (hpgid : job.pgid = -1 ∨ 0 < job.pgid)
    (hpid : 0 < pid) (hnew : getProcess job.processes pid = none) : (job.startProcess pid).Expects pid := by
  refine ⟨hstate, ?_, ⟨pid, ⟨0, .unset, 0⟩, true⟩, ?_, rfl⟩
  · rw [Job.startProcess]
    split_ifs with h
    · exact hpid
    · exact hpgid.resolve_left h
  · rw [getProcess] at hnew
    rw [getProcess, Job.startProcess, List.find?_append, hnew,
      Option.none_or]
    exact List.find?_cons_of_pos (beq_self_eq_true pid)

namespace Expecting

lemma refl (s : State) : Expecting s s := fun _ job _ hr h => ⟨job, hr, h⟩

lemma trans (h : Expecting s s') (h' : Expecting s' s'') : Expecting s s'' := by
  intro r job pid hr hp
  obtain ⟨job', hr', hp'⟩ := h r job pid hr hp
  exact h' r job' pid hr' hp'

lemma of_heap (h : s'.heap = s.heap) : Expecting s s' := by
  intro r job pid hr hp
  exact ⟨job, by rwa [h], hp⟩

lemma put (hr : s.heap r = some job) (h : ∀ pid, job.Expects pid → job'.Expects pid) :
    Expecting s (s.put r job') := by
  intro q job₁ pid hq hp
  by_cases hqr : q = r
  · subst hqr
    rw [hr, Option.some.injEq] at hq
    exact ⟨job', State.put_self, h pid (hq ▸ hp)⟩
  · exact ⟨job₁, (State.put_of_ne hqr).trans hq, hp⟩

lemma free (hr : s.heap r = some job) (h : ∀ pid, ¬ job.Expects pid) : Expecting s (s.free r) := by
  intro q job₁ pid hq hp
  have hqr : q ≠ r := by
    rintro rfl
    rw [hr, Option.some.injEq] at hq
    exact h pid (hq ▸ hp)
  exact ⟨job₁, (State.free_of_ne hqr).trans hq, hp⟩

lemma alloc (h : s.heap s.next = none) : Expecting s s.alloc := by
  intro q job pid hq hp
  have hqn : q ≠ s.next := by
    rintro rfl
    rw [h] at hq
    cases hq
  exact ⟨job, (State.alloc_of_ne hqn).trans hq, hp⟩

lemma bring (hr : (s.fetch job).heap r = some job) : Expecting s (s.bring r job) := by
  have hfetch : Expecting s (s.fetch job) := by
    rw [State.fetch]
    split_ifs
    · exact .refl s
    · exact .of_heap rfl
  exact hfetch.trans ((put hr fun _ h => h.moveToForeground).trans (.of_heap rfl))

lemma list (hr : s.heap r = some job) : Expecting s (s.list r job) := by
  have hput : Expecting s (s.put r { job with id := s.jobs.highestJobId + 1 }) :=
    .put hr fun _ h => ⟨h.not_done, h.grouped, h.running⟩
  exact hput.trans (.of_heap rfl)

end Expecting

lemma steady_expecting : Steady Expecting := ⟨.refl, .trans⟩

end Jobs

section Faults

variable {R : State → State → Prop} {r : Ref} {α : Type} {f : Job → ShellM α}

lemma proceeds_fault (x : Fault) : Proceeds R IsFault (fault x : ShellM α) := proceeds_throw ⟨x, rfl⟩

lemma proceeds_slot (hR : Steady R) (i : ℕ) : Proceeds R IsFault (slot i) :=
  .ite (hR.proceeds_bind hR.proceeds_get fun s => hR.proceeds_pure (s.jobs.table i)) (proceeds_fault _)

lemma proceeds_deref (hR : Steady R) (r : Ref) : Proceeds R IsFault (deref r) := by
  refine hR.proceeds_bind hR.proceeds_get fun s => ?_
  split
  · exact hR.proceeds_pure _
  · exact proceeds_fault _

lemma proceeds_deref_bind
    (h : ∀ s job, s.heap r = some job → Ends (f job) (fun _ s' => R s s') (fun e _ => IsFault e) s) :
    Proceeds R IsFault (deref r >>= f) := by
  intro s
  cases hr : s.heap r with
  | none =>
    simp only [deref, ends_bind, ends_get, hr, ends_fault]
    exact ⟨_, rfl⟩
  | some job =>
    rw [ends_bind, ends_deref hr]
    exact h s job hr

lemma proceeds_findJobFrom (hR : Steady R) (pid : ℤ) (n i : ℕ) :
    Proceeds R IsFault (findJobFrom pid n i) := by
  induction n generalizing i with
  | zero => exact hR.proceeds_pure none
  | succ n ih =>
    apply hR.proceeds_bind (proceeds_slot hR i)
    intro o
    cases o with
    | none => exact ih (i + 1)
    | some r =>
      apply hR.proceeds_bind (proceeds_deref hR r)
      exact fun job => .ite (hR.proceeds_pure _) (ih (i + 1))

lemma proceeds_findJobById (hR : Steady R) (id : ℕ) : Proceeds R IsFault (findJobById id) :=
  .ite (hR.proceeds_pure none) (proceeds_slot hR id)

lemma proceeds_getJobToMove (hR : Steady R) (operands : List Bytes) (elseValue : ℕ) :
    Proceeds R IsFault (getJobToMove operands elseValue) := by
  cases operands with
  | nil => exact proceeds_findJobById hR elseValue
  | cons arg operands =>
    simp only [getJobToMove]
    split_ifs
    · exact hR.proceeds_pure none
    · exact proceeds_findJobFrom hR _ _ _
    · exact hR.proceeds_pure none
    · exact proceeds_findJobById hR _
    · exact hR.proceeds_pure none

lemma proceeds_highestStoppedFrom (hR : Steady R) (i : ℕ) :
    Proceeds R IsFault (highestStoppedFrom i) := by
  induction i with
  | zero => exact hR.proceeds_pure 0
  | succ i ih =>
    apply hR.proceeds_bind (proceeds_slot hR (i + 1))
    intro o
    cases o with
    | none => exact proceeds_fault _
    | some r =>
      apply hR.proceeds_bind (proceeds_deref hR r)
      exact fun job => .ite (hR.proceeds_pure _) ih

lemma proceeds_getHighestStoppedJobId (hR : Steady R) : Proceeds R IsFault getHighestStoppedJobId :=
  hR.proceeds_bind hR.proceeds_get fun _ => proceeds_highestStoppedFrom hR _

lemma proceeds_listJobsFrom (hR : Steady R) (i : ℕ) : Proceeds R IsFault (listJobsFrom i) := by
  induction i with
  | zero => exact hR.proceeds_pure 0
  | succ i ih =>
    apply hR.proceeds_bind (proceeds_slot hR (i + 1))
    intro o
    cases o with
    | none => exact ih
    | some r =>
      apply hR.proceeds_bind (proceeds_deref hR r)
      exact fun job => .ite ih (hR.proceeds_pure 1)

lemma proceeds_runJobs (hR : Steady R) : Proceeds R IsFault runJobs := by
  apply hR.proceeds_bind
  · exact hR.proceeds_bind hR.proceeds_get fun _ => hR.proceeds_pure _
  · exact fun empty => .ite (hR.proceeds_pure 1)
      (hR.proceeds_bind hR.proceeds_get fun _ => proceeds_listJobsFrom hR _)

end Faults

section Tables

variable {R : State → State → Prop} {r : Ref} {job : Job}

structure Structural (R : State → State → Prop) : Prop extends Steady R where
  of_heap : ∀ {s s' : State}, s'.heap = s.heap → R s s'

lemma proceeds_setSlot (hR : Structural R) (i : ℕ) (v : Option Ref) :
    Proceeds R IsFault (setSlot i v) :=
  .ite (proceeds_modify fun _ => hR.of_heap rfl) (proceeds_fault _)

lemma proceeds_setNumJobs (hR : Structural R) (n : ℕ) : Proceeds R IsFault (setNumJobs n) :=
  proceeds_modify fun _ => hR.of_heap rfl

lemma proceeds_setHighestJobId (hR : Structural R) (n : ℕ) :
    Proceeds R IsFault (setHighestJobId n) :=
  proceeds_modify fun _ => hR.of_heap rfl

lemma proceeds_lowerHighestJobId (hR : Structural R) (h : ℕ) :
    Proceeds R IsFault (lowerHighestJobId h) := by
  induction h with
  | zero => exact hR.proceeds_pure _
  | succ h ih =>
    have hlower := hR.proceeds_bind (proceeds_setHighestJobId hR h) fun _ => ih
    apply hR.proceeds_bind (proceeds_slot hR.toSteady (h + 1))
    intro o
    cases o with
    | none => exact hlower
    | some r =>
      apply hR.proceeds_bind (proceeds_deref hR.toSteady r)
      exact fun job => .ite (hR.proceeds_pure _) hlower

lemma proceeds_removeJobFromTable (hR : Structural R) (r : Ref) :
    Proceeds R IsFault (removeJobFromTable r) := by
  have hupdate : Proceeds R IsFault updateHighestJobId :=
    hR.proceeds_bind hR.proceeds_get fun _ => proceeds_lowerHighestJobId hR _
  apply hR.proceeds_bind (proceeds_deref hR.toSteady r)
  intro job
  apply hR.proceeds_bind (proceeds_setSlot hR job.id none)
  intro _
  apply Proceeds.ite
  · apply hR.proceeds_bind hR.proceeds_get
    intro s
    exact hR.proceeds_bind (proceeds_setNumJobs hR _) fun _ => hupdate
  · exact hupdate

lemma structural_heap : Structural fun s s' : State => s'.heap = s.heap :=
  ⟨⟨fun _ => rfl, fun h h' => h'.trans h⟩, id⟩

lemma structural_true : Structural fun _ _ : State => True :=
  ⟨⟨fun _ => trivial, fun _ _ => trivial⟩, fun _ => trivial⟩

lemma proceeds_modifyJob {g : Job → Job}
    (h : ∀ s job, s.heap r = some job → R s (s.put r (g job))) :
    Proceeds R IsFault (modifyJob r g) := by
  apply proceeds_deref_bind
  intro s job hr
  rw [ends_store]
  exact h s job hr

lemma proceeds_hasCompleted : Proceeds Expecting IsFault (hasCompleted (some r)) := by
  apply proceeds_deref_bind
  intro s job hr
  rw [ends_bind, ends_store, ends_pure]
  refine .put hr fun pid h => ?_
  rw [h.hasCompleted]
  exact h

lemma Job.not_expects (h : job.hasCompleted.1 = true) (pid : ℤ) : ¬ job.hasCompleted.2.Expects pid :=
  fun he => he.not_done (Job.hasCompleted_done h)

lemma proceeds_removeIfCompleted (tableJob : Bool) (r : Ref) :
    Proceeds Expecting IsFault (removeIfCompleted tableJob r) := by
  apply Proceeds.ite
  · intro s
    cases hr : s.heap r with
    | none =>
      simp only [hasCompleted, ends_bind, deref, ends_get, hr, ends_fault]
      exact ⟨_, rfl⟩
    | some job =>
      have hput := (proceeds_hasCompleted (r := r) s)
      rw [ends_hasCompleted hr] at hput
      rw [ends_bind, ends_hasCompleted hr]
      cases hc : job.hasCompleted.1 with
      | false => exact hput
      | true =>
        rw [if_pos rfl, ends_bind]
        refine (proceeds_removeJobFromTable structural_heap r _).imp fun _ s' hheap => ?_
        have hr' : s'.heap r = some job.hasCompleted.2 := by
          rw [hheap, State.put_self]
        refine (ends_freeJob hr').mpr ?_
        exact hput.trans ((Expecting.of_heap hheap).trans (.free hr' (Job.not_expects hc)))
  · exact steady_expecting.proceeds_pure _

lemma proceeds_addJobToTable (r : Ref) : Proceeds (fun _ _ => True) IsFault (addJobToTable r) := by
  have hR := structural_true
  apply hR.proceeds_bind hR.proceeds_get
  intro s
  apply hR.proceeds_bind (proceeds_modify fun _ => trivial)
  intro _
  apply hR.proceeds_bind (proceeds_setHighestJobId hR _)
  intro _
  apply hR.proceeds_bind (proceeds_modifyJob fun _ _ _ => trivial)
  intro _
  apply hR.proceeds_bind (proceeds_setSlot hR _ _)
  exact fun _ => proceeds_setNumJobs hR _

lemma proceeds_removeForegroundJob (shouldFree : Bool) :
    Proceeds (fun _ _ => True) IsFault (removeForegroundJob shouldFree) := by
  have hR := structural_true
  apply Proceeds.ite
  · apply hR.proceeds_bind (proceeds_slot hR.toSteady 0)
    intro o
    apply hR.proceeds_bind
    · cases o with
      | none => exact hR.proceeds_pure _
      | some r => exact proceeds_deref_bind fun _ _ _ => trivial
    · exact fun _ => proceeds_setSlot hR 0 none
  · exact proceeds_setSlot hR 0 none

lemma proceeds_endForeground (r : Ref) : Proceeds (fun _ _ => True) IsFault (endForeground r) := by
  have hR := structural_true
  apply hR.proceeds_bind (proceeds_deref hR.toSteady r)
  intro job
  cases job.processes.getLast? with
  | none => exact proceeds_fault _
  | some last =>
    apply hR.proceeds_bind (proceeds_deref hR.toSteady r)
    intro job
    apply hR.proceeds_bind (proceeds_removeForegroundJob _)
    exact fun _ => hR.proceeds_pure _

lemma proceeds_waitForAnyProcess (info : SigInfo) :
    Proceeds (fun _ _ => True) IsFault (waitForAnyProcess (some info)) := by
  have hR := structural_true
  apply hR.proceeds_bind (proceeds_findJobFrom hR.toSteady info.siPid maxJobs 0)
  intro o
  cases o with
  | none => exact hR.proceeds_pure none
  | some r =>
    apply hR.proceeds_bind (proceeds_deref hR.toSteady r)
    exact fun job => fun s => trivial

end Tables

section Worlds

variable {w : World} {s : State} {r : Ref} {job : Job} {out : Option Ref} {α β : Type}

lemma ends_lift {m : ShellM α} {Q : α → World → Prop} {E : Stop → World → Prop} :
    Ends (liftM m : WorldM α) Q E w ↔
      Ends m (fun a s => Q a { w with shell := s }) (fun e s => E e { w with shell := s }) w.shell :=
  ends_run

lemma World.reporting_some {info : SigInfo} {pid : ℤ} (h : (w.reporting info).children pid = some r) :
    w.children pid = some r ∧ (info.siCode.isTermination = true → pid ≠ info.siPid) := by
  rw [World.reporting_children] at h
  split_ifs at h with hend
  · have hpid : pid ≠ info.siPid := by
      rintro rfl
      rw [Function.update_self] at h
      cases h
    rw [Function.update_of_ne hpid] at h
    exact ⟨h, fun _ => hpid⟩
  · exact ⟨h, fun he => absurd he hend⟩

namespace World.Accounted

lemma move (hk : w.Accounted) (h : Expecting w.shell s) : World.Accounted { w with shell := s } := by
  intro hp pid r hc
  obtain ⟨job, hr, he⟩ := hk hp pid r hc
  exact h r job pid hr he

lemma searching (hk : w.Accounted) : w.searching.Accounted :=
  fun hp => hk fun n hn => hp n (List.mem_cons_of_mem _ hn)

lemma reporting (hk : w.Accounted) (info : SigInfo) : (w.reporting info).Accounted := by
  intro hp pid r hc
  exact hk (fun n hn => hp n (List.mem_cons_of_mem _ hn)) pid r (World.reporting_some hc).1

lemma record (hk : w.Accounted) (info : SigInfo) (hr : w.shell.heap r = some job) :
    World.Accounted { w.reporting info with shell := w.shell.put r (job.takeEvent info).2 } := by
  intro hp pid q hc
  obtain ⟨hchild, hend⟩ := World.reporting_some hc
  obtain ⟨job', hq, he⟩ := hk (fun n hn => hp n (List.mem_cons_of_mem _ hn)) pid q hchild
  by_cases hqr : q = r
  · subst hqr
    rw [hr, Option.some.injEq] at hq
    exact ⟨_, State.put_self, (hq ▸ he).takeEvent hend⟩
  · exact ⟨job', (State.put_of_ne hqr).trans hq, he⟩

lemma lift_bind {m : ShellM α} {f : α → WorldM β} {Q : β → World → Prop} (hk : w.Accounted)
    (hm : Proceeds Expecting IsFault m)
    (hf : ∀ a s, World.Accounted { w with shell := s } → Ends (f a) Q Leaves { w with shell := s }) :
    Ends (liftM m >>= f) Q Leaves w :=
  ends_lift_bind.mpr
    ((hm w.shell).mono (fun a s he => hf a s (hk.move he)) fun _ _ he => he.leaves)

end World.Accounted

lemma ends_reapAll_accounted (hk : w.Accounted) (reports : List SigInfo) :
    Ends (World.reapAll reports) (fun _ w' => w'.Accounted) Leaves w := by
  induction reports generalizing w with
  | nil => exact hk
  | cons info reports ih =>
    rw [World.reapAll, ends_bind, ends_modify]
    have hfound := (proceeds_waitForAnyProcess info).ends (ends_waitForAnyProcess_cases w.shell info)
    refine ends_lift_bind.mpr (hfound.mono ?_ fun _ _ he => he.leaves)
    rintro o s ⟨⟨rfl, rfl⟩ | ⟨r, job, process, k, rfl, -, hr, rfl⟩, -⟩
    · exact hk.reporting info
    · apply (hk.record info hr).lift_bind (proceeds_deref steady_expecting r)
      intro job' s hk
      apply hk.lift_bind (proceeds_modifyJob fun _ _ hr => .put hr fun _ he => he.setJobState _)
      intro _ s hk
      apply hk.lift_bind (proceeds_removeIfCompleted _ r)
      exact fun _ _ hk => ih hk

lemma ends_handlePendingSigchld_accounted (hk : w.Accounted) (rounds : List (List SigInfo)) :
    Ends (World.handlePendingSigchld rounds) (fun _ w' => w'.Accounted) Leaves w :=
  ends_forM (fun reports _ _ hk => ends_reapAll_accounted hk reports) hk

lemma ends_waitAt_accounted (hk : w.Accounted) (jobLoc : ℕ) (wakes : List (List (List SigInfo))) :
    Ends (World.waitAt jobLoc wakes) (fun _ w' => w'.Accounted) Leaves w := by
  induction wakes generalizing w with
  | nil =>
    rintro status ⟨⟩
  | cons rounds wakes ih =>
    rw [World.waitAt, ends_bind]
    refine (ends_handlePendingSigchld_accounted hk rounds).imp fun _ w₁ hk₁ => ?_
    apply hk₁.lift_bind (proceeds_slot steady_expecting jobLoc)
    intro o s hk₂
    cases o with
    | none => exact hk₂
    | some r =>
      apply hk₂.lift_bind proceeds_hasCompleted
      intro completed s hk₃
      refine ends_ite.mpr ⟨fun _ => ?_, fun _ => ?_⟩
      · apply hk₃.lift_bind (proceeds_deref steady_expecting r)
        exact fun _ _ hk₄ => hk₄
      · apply hk₃.lift_bind (proceeds_deref steady_expecting r)
        intro job s hk₄
        refine ends_ite.mpr ⟨fun _ => ?_, fun _ => ih hk₄⟩
        apply hk₄.lift_bind (proceeds_deref steady_expecting r)
        exact fun _ _ hk₅ => hk₅

end Worlds

end SystemsLab.Shell
