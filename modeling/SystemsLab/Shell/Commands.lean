import SystemsLab.Shell.Reaping

namespace SystemsLab.Shell

open Effects Tables CLib

variable {s s' : State} {r : Ref} {job job' : Job}

lemma Table.clearFront (h : Table s none) : Tidy (s.setFront none) none where
  toTable := h.setFront nofun
  front q job hq := by
    rw [State.setFront_front] at hq
    cases hq

lemma ends_addJobToTable_table (h : Table s none) (hr : s.heap r = some job) (hid : job.id = 0)
    (hstate : job.state = .background ∨ job.state = .stopped) :
    Ends (addJobToTable r) (fun _ s' => s' = s.list r job ∧ Table s' none) Logs s := by
  refine (ends_addJobToTable hr).mono ?_ ?_
  · rintro ⟨⟩ s' ⟨hlt, rfl⟩
    exact ⟨rfl, h.list hr hid hstate hlt⟩
  · rintro e s' ⟨-, he⟩ c hc
    rw [he] at hc
    rcases List.mem_cons.mp hc with rfl | hc
    · exact h.sound_call
    · exact h.logged c hc

lemma ends_endForeground (hr : s.heap r = some job) (hf : s.jobs.table 0 = some r) :
    Ends (endForeground r)
      (fun _ s' => s' = (if job.state = .done then s.free r else s).setFront none)
      (fun _ s' => s' = s) s := by
  rw [endForeground, ends_bind, ends_deref hr]
  cases job.processes.getLast? with
  | none => exact rfl
  | some last =>
    simp only [ends_bind, ends_deref hr]
    by_cases hd : job.state = .done
    · rw [if_pos hd, hd]
      exact (ends_removeForegroundJob_true hf hr).mpr rfl
    · rw [if_neg hd, beq_eq_false_iff_ne.mpr hd]
      exact ends_removeForegroundJob_false.mpr rfl

lemma ends_handleJob_foreground (h : Tidy s none) (hf : InFront s r) (hr : s.heap r = some job)
    (hstate : job.state = .foreground) (wakes : List (List (List SigInfo))) :
    Ends (handleJob r wakes) (fun _ s' => Tidy s' none ∧ s'.jobs.table 0 = none) Logs s := by
  have hid := h.front r job hf.slot hr
  rw [handleJob, ends_bind, ends_deref hr, hstate]
  simp only [waitForProcesses, ends_bind, ends_deref hr, hid]
  refine (ends_waitAt h hf wakes).imp ?_
  rintro - s₁ ⟨h₁, hf₁⟩
  obtain ⟨job₁, hr₁, hid₁⟩ := hf₁.exists_job h₁
  rw [ends_deref hr₁]
  by_cases hst : job₁.state = .stopped
  · rw [if_pos hst, ends_bind]
    refine (ends_addJobToTable_table h₁.toTable hr₁ hid₁ (Or.inr hst)).imp ?_
    rintro - s₂ ⟨rfl, ht⟩
    refine (ends_endForeground State.list_self (State.list_front.trans hf₁.slot)).mono ?_ ?_
    · rintro - s₃ rfl
      rw [if_neg (by rw [hst]; rintro ⟨⟩)]
      exact ⟨ht.clearFront, State.setFront_front⟩
    · rintro e s₃ rfl
      exact ht.logged
  · rw [if_neg hst]
    refine (ends_endForeground hr₁ hf₁.slot).mono ?_ ?_
    · rintro - s₃ rfl
      refine ⟨Table.clearFront ?_, State.setFront_front⟩
      split_ifs
      · exact h₁.toTable.free (h₁.not_listed hr₁ hid₁)
      · exact h₁.toTable
    · rintro e s₃ rfl
      exact h₁.logged

lemma Tidy.list (h : Tidy s none) (ht : Table (s.list r job) none)
    (hfront : s.jobs.table 0 ≠ some r) : Tidy (s.list r job) none := by
  refine ⟨ht, fun q job' hq hjob => ?_⟩
  rw [State.list_front] at hq
  have hqr : q ≠ r := by
    rintro rfl
    exact hfront hq
  rw [State.list_of_ne hqr] at hjob
  exact h.front q job' hq hjob

lemma ends_handleJob_background (h : Tidy s none) (hr : s.heap r = some job) (hid : job.id = 0)
    (hstate : job.state = .background) (hfront : s.jobs.table 0 ≠ some r)
    (wakes : List (List (List SigInfo))) :
    Ends (handleJob r wakes) (fun _ s' => Tidy s' none ∧ s'.jobs.table 0 = s.jobs.table 0) Logs
      s := by
  rw [handleJob, ends_bind, ends_deref hr, hstate, ends_bind]
  refine (ends_addJobToTable_table h.toTable hr hid (Or.inl hstate)).imp ?_
  rintro ⟨⟩ s' ⟨rfl, ht⟩
  exact ⟨h.list ht hfront, State.list_front⟩

structure Fetched (s : State) (r : Ref) (job : Job) : Prop where
  table : Table (s.fetch job) none
  heap : (s.fetch job).heap r = some job
  slot_le : job.id ≤ maxJobs
  state : job.id ≠ 0 → job.state ≠ .foreground
  gone : ∀ i, 1 ≤ i → (s.fetch job).jobs.table i ≠ some r

lemma Tidy.fetched (h : Tidy s none) (hr : s.heap r = some job)
    (hslot : job.id = 0 ∨ s.jobs.table job.id = some r) : Fetched s r job := by
  by_cases hid : job.id = 0
  · have he : s.fetch job = s := if_pos hid
    refine ⟨?_, ?_, hid ▸ Nat.zero_le _, fun h0 => absurd hid h0, ?_⟩
    · rw [he]
      exact h.toTable
    · rw [he]
      exact hr
    · rw [he]
      exact h.not_listed hr hid
  · have he : s.fetch job = s.unlist job.id := if_neg hid
    have hpos := Nat.one_le_iff_ne_zero.mpr hid
    have hs := hslot.resolve_left hid
    obtain ⟨job', hr', -, hst⟩ := h.listed job.id r hpos hs
    rw [hr] at hr'
    cases hr'
    refine ⟨?_, ?_, h.slot_le hs, ?_, ?_⟩
    · rw [he]
      exact h.unlist hpos hs (Or.inl rfl)
    · rw [he]
      exact hr
    · rintro - hfg
      rcases hst with hst | hst | ⟨hst, -⟩
      · rw [hfg] at hst
        cases hst
      · rw [hfg] at hst
        cases hst
      · cases hst
    · intro i hi hq
      rw [he, State.unlist_table] at hq
      by_cases hii : i = job.id
      · rw [hii, Function.update_self] at hq
        cases hq
      · rw [Function.update_of_ne hii] at hq
        obtain ⟨job', hr', hid', -⟩ := h.listed i r hi hq
        rw [hr] at hr'
        cases hr'
        exact hii hid'.symm

def State.bring (s : State) (r : Ref) (job : Job) : State :=
  ((s.fetch job).put r job.moveToForeground).setFront (some r)

lemma ends_setForegroundJob_bring {E : Stop → State → Prop} (h : Tidy s none)
    (hr : s.heap r = some job) (hslot : job.id = 0 ∨ s.jobs.table job.id = some r) :
    Ends (setForegroundJob r) (fun _ s' => s' = s.bring r job) E s := by
  have hf := h.fetched hr hslot
  have hlisted : Listed (s.fetch job) := by
    intro i q hi hq
    obtain ⟨job', hq', -, hst⟩ := hf.table.listed i q hi hq
    refine ⟨job', hq', ?_⟩
    rcases hst with hst | hst | ⟨hst, -⟩
    · exact Or.inl hst
    · exact Or.inr hst
    · cases hst
  exact ends_setForegroundJob hr hf.slot_le hf.state hlisted h.counts.highest_le

lemma Tidy.bring (h : Tidy s none) (hr : s.heap r = some job)
    (hslot : job.id = 0 ∨ s.jobs.table job.id = some r) :
    Tidy (s.bring r job) none ∧ InFront (s.bring r job) r ∧
      (s.bring r job).heap r = some job.moveToForeground := by
  have hf := h.fetched hr hslot
  have hput : Table ((s.fetch job).put r job.moveToForeground) none :=
    hf.table.put hf.heap (fun i hi hq => absurd hq (hf.gone i hi)) (fun _ _ he => he)
  refine ⟨⟨hput.setFront ?_, ?_⟩, ⟨State.setFront_front, ?_⟩, State.put_self⟩
  · rintro q ⟨⟩
    rw [State.put_self]
    rintro ⟨⟩
  · intro q job' hq hjob
    rw [State.bring, State.setFront_front, Option.some.injEq] at hq
    subst hq
    rw [State.bring, State.setFront_heap, State.put_self, Option.some.injEq] at hjob
    rw [← hjob]
    rfl
  · rw [State.bring, State.setFront_heap, State.put_self]
    rintro ⟨⟩

lemma ends_setForegroundJob_tidy (h : Tidy s none) (hr : s.heap r = some job)
    (hslot : job.id = 0 ∨ s.jobs.table job.id = some r) :
    Ends (setForegroundJob r)
      (fun _ s' => Tidy s' none ∧ InFront s' r ∧ s'.heap r = some job.moveToForeground) Logs s := by
  refine (ends_setForegroundJob_bring h hr hslot).imp ?_
  rintro - s' rfl
  exact h.bring hr hslot

def Chosen (s : State) (o : Option Ref) : Prop :=
  ∀ r, o = some r → ∃ job, s.heap r = some job ∧ 1 ≤ job.id ∧ s.jobs.table job.id = some r

lemma ends_findJobById (h : Tidy s none) (id : ℕ) :
    Ends (findJobById id) (fun o s' => s' = s ∧ Chosen s o) (fun _ s' => s' = s) s := by
  rw [findJobById]
  split_ifs with hid
  · exact ⟨rfl, nofun⟩
  · rw [ends_slot (by omega)]
    refine ⟨rfl, fun r hslot => ?_⟩
    obtain ⟨job, hr, he, -⟩ := h.listed id r (by omega) hslot
    subst he
    exact ⟨job, hr, by omega, hslot⟩

lemma ends_findJobByPid_chosen (h : Tidy s none) (hfront : s.jobs.table 0 = none) (pid : ℤ) :
    Ends (findJobByPid pid) (fun o s' => s' = s ∧ Chosen s o) (fun _ s' => s' = s) s := by
  refine (ends_findJobByPid pid).imp ?_
  rintro o s' ⟨rfl, hfound⟩
  refine ⟨rfl, fun r ho => ?_⟩
  obtain ⟨k, job, hk, hr, -⟩ := hfound r ho
  have hslot := h.seated hk hr
  refine ⟨job, hr, ?_, hslot⟩
  by_contra h0
  rw [Nat.eq_zero_of_not_pos h0, hfront] at hslot
  cases hslot

lemma ends_getJobToMove (h : Tidy s none) (hfront : s.jobs.table 0 = none) (operands : List Bytes)
    (elseValue : ℕ) :
    Ends (getJobToMove operands elseValue) (fun o s' => s' = s ∧ Chosen s o) (fun _ s' => s' = s)
      s := by
  have hnone : s = s ∧ Chosen s none := ⟨rfl, nofun⟩
  cases operands with
  | nil => exact ends_findJobById h elseValue
  | cons arg operands =>
    simp only [getJobToMove]
    split_ifs
    · exact hnone
    · exact ends_findJobByPid_chosen h hfront _
    · exact hnone
    · exact ends_findJobById h _
    · exact hnone

lemma reads_highestStoppedFrom (i : ℕ) : Reads (highestStoppedFrom i) := by
  induction i with
  | zero => exact reads_pure
  | succ i ih =>
    refine (reads_slot (i + 1)).bind fun o => ?_
    cases o with
    | none => exact reads_throw
    | some r => exact (reads_deref r).bind fun job => Reads.ite reads_pure ih

lemma reads_listJobsFrom (i : ℕ) : Reads (listJobsFrom i) := by
  induction i with
  | zero => exact reads_pure
  | succ i ih =>
    refine (reads_slot (i + 1)).bind fun o => ?_
    cases o with
    | none => exact ih
    | some r => exact (reads_deref r).bind fun job => Reads.ite ih reads_pure

lemma reads_runJobs : Reads runJobs :=
  reads_isJobTableEmpty.bind fun _ =>
    Reads.ite reads_pure (reads_get.bind fun _ => reads_listJobsFrom _)

lemma reads_runExit (operands : List Bytes) (lastStatus : ℤ) :
    Reads (runExit operands lastStatus) := by
  rcases operands with _ | ⟨arg, _ | ⟨arg', operands⟩⟩
  · exact reads_throw
  · exact Reads.ite reads_pure (Reads.ite reads_throw reads_throw)
  · exact reads_pure

lemma ends_removePlaceholder (h : Tidy s none) (hf : InFront s r) :
    Ends (removeForegroundJob true) (fun _ s' => Tidy s' none ∧ s'.jobs.table 0 = none) Logs s := by
  obtain ⟨job, hr, hid⟩ := hf.exists_job h
  rw [ends_removeForegroundJob_true hf.slot hr]
  exact ⟨(h.toTable.free (h.not_listed hr hid)).clearFront, State.setFront_front⟩

lemma ends_runFg (h : Tidy s none) (hf : InFront s r) (operands : List Bytes)
    (wakes : List (List (List SigInfo))) :
    Ends (runFg operands wakes) (fun _ s' => Tidy s' none ∧ s'.jobs.table 0 = none) Logs s := by
  rw [runFg, ends_bind]
  refine (ends_removePlaceholder h hf).imp ?_
  rintro - s₁ ⟨h₁, hfront⟩
  rw [ends_bind, ends_isJobTableEmpty]
  split_ifs
  · exact ⟨h₁, hfront⟩
  · rw [ends_bind, ends_get, ends_bind]
    refine (ends_getJobToMove h₁ hfront operands _).mono ?_ ?_
    · rintro o s₂ ⟨rfl, hchosen⟩
      cases o with
      | none => exact ⟨h₁, hfront⟩
      | some q =>
        obtain ⟨job, hq, -, hslot⟩ := hchosen q rfl
        rw [ends_bind]
        refine (ends_setForegroundJob_tidy h₁ hq (Or.inr hslot)).imp ?_
        rintro - s₃ ⟨h₃, hf₃, hq₃⟩
        exact ends_handleJob_foreground h₃ hf₃ hq₃ rfl wakes
    · rintro e s₂ rfl
      exact h₁.logged

lemma Tidy.sendBack (h : Tidy s none) (hr : s.heap r = some job) :
    Tidy ((s.put r (job.setJobProcessState .running)).put r job.moveToBackground) none := by
  have hc : Changes job job.moveToBackground := ⟨rfl, Or.inr (Or.inr (Or.inl rfl))⟩
  have h₁ := h.put_changes (Or.inl rfl) hr hc
  have he : (s.put r (job.setJobProcessState .running)).put r job.moveToBackground =
      s.put r job.moveToBackground := by
    simp only [State.put, Function.update_idem]
  rw [he]
  refine ⟨h₁.settle State.put_self (Or.inl ?_), h₁.front⟩
  rintro ⟨⟩

lemma ends_runBg (h : Tidy s none) (hf : InFront s r) (operands : List Bytes) :
    Ends (runBg operands) (fun _ s' => Tidy s' none ∧ s'.jobs.table 0 = none) Logs s := by
  rw [runBg, ends_bind]
  refine (ends_removePlaceholder h hf).imp ?_
  rintro - s₁ ⟨h₁, hfront⟩
  rw [ends_bind]
  refine Reads.ends (reads_get.bind fun _ => reads_highestStoppedFrom _) (fun elseValue => ?_)
    h₁.logged
  rw [ends_bind]
  refine (ends_getJobToMove h₁ hfront operands elseValue).mono ?_ ?_
  · rintro o s₂ ⟨rfl, hchosen⟩
    cases o with
    | none =>
      rw [ends_bind, ends_isJobTableEmpty]
      split_ifs
      · exact ⟨h₁, hfront⟩
      · exact ⟨h₁, hfront⟩
    | some q =>
      obtain ⟨job, hq, -, -⟩ := hchosen q rfl
      rw [ends_bind, ends_modifyJob hq, ends_bind, ends_modifyJob State.put_self]
      exact ⟨h₁.sendBack hq, hfront⟩
  · rintro e s₂ rfl
    exact h₁.logged

def Served (r : Ref) (s : State) : Prop := Tidy s none ∧ (InFront s r ∨ s.jobs.table 0 = none)

lemma ends_runBuiltinCommand (h : Tidy s none) (hf : InFront s r) (name : Bytes)
    (operands : List Bytes) (lastStatus : ℤ) (a : Answers) :
    Ends (runBuiltinCommand name operands lastStatus a) (fun _ => Served r) Logs s := by
  have hsame : Served r s := ⟨h, Or.inl hf⟩
  rw [runBuiltinCommand]
  split_ifs
  · exact (reads_runExit operands lastStatus).ends (fun _ => hsame) h.logged
  · exact hsame
  · exact hsame
  · exact reads_runJobs.ends (fun _ => hsame) h.logged
  · exact (ends_runFg h hf operands a.wakes).imp fun _ _ hs => ⟨hs.1, Or.inr hs.2⟩
  · exact (ends_runBg h hf operands).imp fun _ _ hs => ⟨hs.1, Or.inr hs.2⟩
  · exact hsame

lemma Tidy.alloc (h : Tidy s none) : Tidy s.alloc none where
  toTable := h.toTable.alloc
  front q job hq hjob := by
    by_cases hqn : q = s.next
    · exact absurd hq (hqn ▸ (h.unused s.next le_rfl).2 0)
    · rw [State.alloc_of_ne hqn] at hjob
      exact h.front q job hq hjob

lemma ends_runRedirected (h : Tidy s none) (hf : InFront s r) (name : Bytes)
    (operands : List Bytes) (lastStatus : ℤ) (a : Answers) :
    Ends (runRedirected name operands lastStatus a) (fun _ => Served r) Logs s := by
  have hsame : Served r s := ⟨h, Or.inl hf⟩
  rw [runRedirected]
  split_ifs
  · exact hsame
  · exact hsame
  · exact hsame
  · rw [ends_bind]
    refine (ends_runBuiltinCommand h hf name operands lastStatus a).imp fun status s' hs => ?_
    exact hs
  · rw [ends_bind]
    refine (ends_runBuiltinCommand h hf name operands lastStatus a).imp fun status s' hs => ?_
    exact hs

lemma ends_runSingleBuiltinCommand (h : Tidy s none) (command : Command) (lastStatus : ℤ)
    (a : Answers) :
    Ends (runSingleBuiltinCommand command lastStatus a)
      (fun _ s' => Tidy s' none ∧ (s.jobs.table 0 = none → s'.jobs.table 0 = none)) Logs s := by
  rw [runSingleBuiltinCommand]
  cases command.args with
  | nil => exact h.logged
  | cons name operands =>
    simp only [ends_bind, ends_isJobTableEmpty, ends_ite, ends_pure, ends_defaultJob]
    refine ⟨fun _ => ⟨h, id⟩, fun _ => ?_⟩
    refine (ends_setForegroundJob_tidy h.alloc State.alloc_self (Or.inl rfl)).imp ?_
    rintro - s₁ ⟨h₁, hf₁, -⟩
    refine (ends_runRedirected h₁ hf₁ name operands lastStatus a).imp ?_
    rintro status s₂ ⟨h₂, hleft⟩
    rw [ends_slot (Nat.zero_le _)]
    rcases hleft with hf₂ | hempty
    · refine ⟨fun _ => ?_, fun hne => absurd hf₂.slot hne⟩
      exact (ends_removePlaceholder h₂ hf₂).imp fun _ _ hs => ⟨hs.1, fun _ => hs.2⟩
    · refine ⟨fun hs => ?_, fun _ => ⟨h₂, fun _ => hempty⟩⟩
      cases hempty.symm.trans hs

structure Starts (s : State) (r : Ref) (job : Job) (s' : State) : Prop where
  tidy : Tidy s' none
  front : s'.jobs.table 0 = s.jobs.table 0
  job : ∃ job', s'.heap r = some job' ∧ job'.id = 0 ∧ job'.state = job.state

lemma Tidy.startProcess (h : Tidy s none) (hr : s.heap r = some job) (hid : job.id = 0) (pid : ℤ) :
    Tidy (s.put r (job.startProcess pid)) none := by
  have hchanges : Changes job (job.startProcess pid) := ⟨rfl, Or.inl rfl⟩
  have h₁ := h.put_changes (Or.inl rfl) hr hchanges
  exact ⟨h₁.settle State.put_self (Or.inr hid), h₁.front⟩

lemma Tidy.free (h : Tidy s none) (hr : s.heap r = some job) (hid : job.id = 0) :
    Tidy (s.free r) none := by
  refine ⟨h.toTable.free (h.not_listed hr hid), ?_⟩
  intro q job' hq hjob
  by_cases hqr : q = r
  · rw [hqr, State.free_self] at hjob
    cases hjob
  · rw [State.free_of_ne hqr] at hjob
    exact h.front q job' hq hjob

lemma ends_endGroup {told : Told} {pgid : ℤ} {Q : Unit → State → Prop} {E : Stop → State → Prop}
    (hQ : Q () s) (hE : 0 < pgid → told.ends = false → E .asleep s) :
    Ends (endGroup told pgid) Q E s := by
  rw [endGroup]
  refine ends_ite.mpr ⟨fun hpos => ends_ite.mpr ⟨fun _ => hQ, fun hends => ?_⟩, fun _ => hQ⟩
  exact hE hpos (Bool.eq_false_of_not_eq_true hends)

lemma ends_startFrom (h : Tidy s none) (hr : s.heap r = some job) (hid : job.id = 0)
    (spawn : ℕ → Spawn) (k : ℕ) (commands : List Command) :
    Ends (startFrom r spawn k commands)
      (fun b s' => (b = true → Starts s r job s') ∧
        (b = false → Tidy s' none ∧ ∃ j, (spawn j).pipeFails = true)) Logs s := by
  induction commands generalizing s job k with
  | nil => exact ⟨fun _ => ⟨h, rfl, job, hr, hid, rfl⟩, nofun⟩
  | cons command commands ih =>
    rw [startFrom]
    split_ifs with hpipe
    · rw [ends_bind, ends_deref hr, ends_bind]
      refine ends_endGroup ?_ fun _ _ => h.logged
      rw [ends_bind, ends_freeJob hr, ends_pure]
      exact ⟨nofun, fun _ => ⟨h.free hr hid, k, hpipe.2⟩⟩
    · cases (spawn k).fork with
      | none => exact h.logged
      | some pid =>
        rw [ends_bind, ends_modifyJob hr]
        refine (ih (h.startProcess hr hid pid) State.put_self hid (k + 1)).imp ?_
        rintro b s' ⟨htrue, hfalse⟩
        exact ⟨fun hb => ⟨(htrue hb).tidy, (htrue hb).front, (htrue hb).job⟩, hfalse⟩

def Answers.PipesWork (a : Answers) : Prop := ∀ k, (a.spawn k).pipeFails = false

lemma Answers.PipesWork.absurd {a : Answers} (h : a.PipesWork) {P : Prop}
    (hk : ∃ k, (a.spawn k).pipeFails = true) : P := by
  obtain ⟨k, hk⟩ := hk
  rw [h k] at hk
  cases hk

lemma Tidy.putBackground (h : Tidy s none) (hr : s.heap r = some job) (hid : job.id = 0) :
    Tidy (s.put r { job with state := .background }) none := by
  have hchanges : Changes job { job with state := .background } := ⟨rfl, Or.inr (Or.inr (Or.inl rfl))⟩
  have h₁ := h.put_changes (Or.inl rfl) hr hchanges
  exact ⟨h₁.settle State.put_self (Or.inr hid), h₁.front⟩

lemma ends_runPipeline (h : Tidy s none) (pipeline : Pipeline) (a : Answers) :
    Ends (runPipeline pipeline a)
      (fun _ s' => Tidy s' none ∧
        (a.PipesWork → s.jobs.table 0 = none → s'.jobs.table 0 = none)) Logs s := by
  have ha := h.alloc
  rw [runPipeline]
  simp only [ends_bind, ends_defaultJob]
  cases pipeline.isInBackground with
  | true =>
    have h₂ := ha.putBackground State.alloc_self rfl
    rw [if_pos rfl, ends_bind, ends_modifyJob State.alloc_self, ends_bind]
    refine (ends_startFrom h₂ State.put_self rfl a.spawn 0 pipeline.commands).imp ?_
    rintro b s₁ ⟨htrue, hfalse⟩
    cases b with
    | true =>
      obtain ⟨h₃, hfront, job, hr, hid, hst⟩ := htrue rfl
      rw [if_pos rfl]
      have hne : s₁.jobs.table 0 ≠ some s.next := by
        rw [hfront]
        exact (h.unused s.next le_rfl).2 0
      refine (ends_handleJob_background h₃ hr hid hst hne a.wakes).imp ?_
      rintro - s₂ ⟨h₄, hfront₂⟩
      exact ⟨h₄, fun _ h0 => hfront₂.trans (hfront.trans h0)⟩
    | false =>
      rw [if_neg Bool.false_ne_true]
      exact ⟨(hfalse rfl).1, fun hp => hp.absurd (hfalse rfl).2⟩
  | false =>
    rw [if_neg Bool.false_ne_true, ends_bind]
    refine (ends_setForegroundJob_tidy ha State.alloc_self (Or.inl rfl)).imp ?_
    rintro - s₁ ⟨h₁, hf₁, hr₁⟩
    rw [ends_bind]
    refine (ends_startFrom h₁ hr₁ rfl a.spawn 0 pipeline.commands).imp ?_
    rintro b s₂ ⟨htrue, hfalse⟩
    cases b with
    | true =>
      obtain ⟨h₃, hfront, job, hr, -, hst⟩ := htrue rfl
      rw [if_pos rfl]
      have hf₂ : InFront s₂ s.next := by
        refine ⟨hfront.trans hf₁.slot, ?_⟩
        rw [hr]
        rintro ⟨⟩
      exact (ends_handleJob_foreground h₃ hf₂ hr hst a.wakes).imp fun _ _ hs =>
        ⟨hs.1, fun _ _ => hs.2⟩
    | false =>
      rw [if_neg Bool.false_ne_true]
      exact ⟨(hfalse rfl).1, fun hp => hp.absurd (hfalse rfl).2⟩

lemma ends_interpret (h : Tidy s none) (pipeline : Pipeline) (lastStatus : ℤ) (a : Answers) :
    Ends (interpret pipeline lastStatus a)
      (fun _ s' => Tidy s' none ∧
        (a.PipesWork → s.jobs.table 0 = none → s'.jobs.table 0 = none)) Logs s := by
  rw [interpret]
  split
  · exact ⟨h, fun _ => id⟩
  · split_ifs
    · exact (ends_runSingleBuiltinCommand h _ lastStatus a).imp fun _ _ hs =>
        ⟨hs.1, fun _ => hs.2⟩
    · exact ends_runPipeline h pipeline a
  · exact ends_runPipeline h pipeline a

def Input.PipesWork : Input → Prop
  | .sigchld _ | .sigint => True
  | .pipeline _ a => a.PipesWork

lemma ends_runInput (h : Tidy s none) (lastStatus : ℤ) (input : Input) :
    Ends (runInput lastStatus input)
      (fun _ s' => Tidy s' none ∧
        (input.PipesWork → s.jobs.table 0 = none → s'.jobs.table 0 = none)) Logs s := by
  cases input with
  | sigchld rounds =>
    rw [runInput, ends_bind]
    refine (ends_handlePendingSigchld h rounds).imp ?_
    rintro - s' ⟨h', hkept⟩
    exact ⟨h', fun _ h0 => hkept.front.trans h0⟩
  | sigint => exact ⟨h, fun _ => id⟩
  | pipeline p a => exact ends_interpret h p lastStatus a

lemma ends_runShell (inputs : List Input) :
    Ends (runShell inputs) (fun _ s' => Tidy s' none) Logs initialState := by
  refine (ends_foldlM (P := fun s' => Tidy s' none) ?_ initialState_tidy)
  rintro input - status s h
  exact (ends_runInput h status input).imp fun _ _ hs => hs.1

structure JobTable (s : State) : Prop where
  listed : ∀ i r, 1 ≤ i → s.jobs.table i = some r →
    ∃ job, s.heap r = some job ∧ job.id = i ∧ (job.state = .background ∨ job.state = .stopped)
  distinct : ∀ i k r, s.jobs.table i = some r → s.jobs.table k = some r → i = k
  front : s.jobs.table 0 = none
  numJobs_eq : s.jobs.numJobs = (occupied maxJobs s.jobs.table).card
  inside : ∀ i, 1 ≤ i → s.jobs.table i ≠ none → i ≤ maxJobs
  highest : s.jobs.highestJobId = 0 ∨ s.jobs.table s.jobs.highestJobId ≠ none
  le_highest : ∀ i, 1 ≤ i → s.jobs.table i ≠ none → i ≤ s.jobs.highestJobId

lemma Tidy.jobTable (h : Tidy s none) (hfront : s.jobs.table 0 = none) : JobTable s := by
  have hlisted : ∀ i r, 1 ≤ i → s.jobs.table i = some r → ∃ job, s.heap r = some job ∧
      job.id = i ∧ (job.state = .background ∨ job.state = .stopped) := by
    intro i r hi hr
    obtain ⟨job, hjob, hid, hst⟩ := h.listed i r hi hr
    refine ⟨job, hjob, hid, ?_⟩
    rcases hst with hst | hst | ⟨hst, -⟩
    · exact Or.inl hst
    · exact Or.inr hst
    · cases hst
  have hpos : ∀ i r, s.jobs.table i = some r → 1 ≤ i := by
    intro i r hi
    refine Nat.one_le_iff_ne_zero.mpr ?_
    rintro rfl
    rw [hfront] at hi
    cases hi
  have hin : ∀ i, 1 ≤ i → s.jobs.table i ≠ none → i ≤ maxJobs := by
    intro i _ hne
    by_contra hlt
    exact hne (h.inside i (Nat.lt_of_not_le hlt))
  refine ⟨hlisted, ?_, hfront, h.counts.count_eq, hin, ?_, ?_⟩
  · intro i k r hi hk
    obtain ⟨job, hjob, hid, -⟩ := hlisted i r (hpos i r hi) hi
    obtain ⟨job', hjob', hid', -⟩ := hlisted k r (hpos k r hk) hk
    rw [hjob] at hjob'
    cases hjob'
    exact hid.symm.trans hid'
  · rcases h.counts.highest_mem with h0 | hmem
    · exact Or.inl h0
    · exact Or.inr (Option.isSome_iff_ne_none.mp (mem_occupied.mp hmem).2)
  · intro i hi hne
    exact h.counts.le_highest i
      (mem_occupied.mpr ⟨⟨hi, hin i hi hne⟩, Option.isSome_iff_ne_none.mpr hne⟩)

theorem job_table_invariant (inputs : List Input) (hpipes : ∀ input ∈ inputs, input.PipesWork)
    (status : ℤ) (s : State) (hrun : runShell inputs initialState = .ok status s) :
    JobTable s := by
  have hends : Ends (runShell inputs) (fun _ s' => Tidy s' none ∧ s'.jobs.table 0 = none) Logs
      initialState := by
    refine ends_foldlM (P := fun s' => Tidy s' none ∧ s'.jobs.table 0 = none) ?_
      ⟨initialState_tidy, rfl⟩
    rintro input hmem b s ⟨h, hfront⟩
    exact (ends_runInput h b input).imp fun _ _ hs => ⟨hs.1, hs.2 (hpipes input hmem) hfront⟩
  have hs := hends.ok hrun
  exact hs.1.jobTable hs.2

def startsWith (pid : ℤ) (wakes : List (List (List SigInfo))) : Answers :=
  ⟨fun k => ⟨false, some (pid + k), .obeyed⟩, wakes, false, 0, false, 0⟩

def stopAndEnd : List Input :=
  [.pipeline ⟨true, [⟨[ascii "sleep"], .other⟩]⟩ (startsWith 7 []),
   .pipeline ⟨false, [⟨[ascii "cat"], .other⟩]⟩ (startsWith 8 [[[⟨8, .stopped, 20⟩]]]),
   .sigchld [[⟨7, .exited, 0⟩]]]

theorem job_table_invariant_stopAndEnd : ∃ status s,
    runShell stopAndEnd initialState = .ok status s ∧ s.jobs.highestJobId = 2 ∧ JobTable s := by
  refine ⟨_, _, rfl, rfl, job_table_invariant stopAndEnd ?_ _ _ rfl⟩
  simp [stopAndEnd, Input.PipesWork, Answers.PipesWork, startsWith]

end SystemsLab.Shell
