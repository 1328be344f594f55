import SystemsLab.Shell.Children

namespace SystemsLab.Shell

open Effects Tables CLib

variable {w : World} {s : State} {r : Ref} {job : Job} {out : Option Ref} {α β : Type}

lemma ends_handleJob_foreground_accounted (h : Whole w (some r)) (hf : InFront w.shell r)
    (hk : w.Accounted) (hr : w.shell.heap r = some job) (hstate : job.state = .foreground)
    (wakes : List (List (List SigInfo))) :
    Ends (World.handleJob r wakes) (fun _ w' => w'.Accounted) Leaves w := by
  have hid := h.tidy.front r job hf.slot hr
  rw [World.handleJob]
  refine ends_lift_bind.mpr ((ends_deref hr).mpr ?_)
  rw [hstate]
  simp only [World.waitForProcesses]
  rw [ends_bind]
  refine ends_lift_bind.mpr ((ends_deref hr).mpr ?_)
  rw [hid]
  refine ((ends_waitAt_whole h hf wakes).and (ends_waitAt_accounted hk 0 wakes)).mono ?_
    fun _ _ he => he.2
  rintro - w₁ ⟨⟨h₁, hf₁, hended⟩, hk₁⟩
  obtain ⟨job₁, hr₁, hid₁⟩ := hf₁.exists_job h₁.tidy
  refine ends_lift_bind.mpr ((ends_deref hr₁).mpr (ends_ite.mpr ⟨fun hst => ?_, fun hst => ?_⟩))
  · have hadd := (proceeds_addJobToTable r).ends
      (ends_addJobToTable_table h₁.tidy.toTable hr₁ hid₁ (Or.inr hst))
    refine ends_lift_bind.mpr (hadd.mono ?_ fun _ _ he => he.leaves)
    rintro - s ⟨⟨rfl, -⟩, -⟩
    have hlisted : (w₁.shell.list r job₁).heap r =
        some { job₁ with id := w₁.shell.jobs.highestJobId + 1 } := State.list_self
    have hend := (proceeds_endForeground r).ends
      (ends_endForeground hlisted (State.list_front.trans hf₁.slot))
    refine ends_lift.mpr (hend.mono ?_ fun _ _ he => he.leaves)
    rintro - s ⟨rfl, -⟩
    rw [if_neg (by rw [hst]; rintro ⟨⟩)]
    exact hk₁.move ((Expecting.list hr₁).trans (.of_heap rfl))
  · have hend := (proceeds_endForeground r).ends (ends_endForeground hr₁ hf₁.slot)
    refine ends_lift.mpr (hend.mono ?_ fun _ _ he => he.leaves)
    rintro - s ⟨rfl, -⟩
    have hdone := (hended job₁ hr₁).resolve_right hst
    rw [if_pos hdone]
    have hfree : Expecting w₁.shell (w₁.shell.free r) := .free hr₁ fun _ he => he.not_done hdone
    exact hk₁.move (hfree.trans (.of_heap rfl))

lemma ends_handleJob_background_accounted (h : Whole w (some r)) (hk : w.Accounted)
    (hr : w.shell.heap r = some job) (hid : job.id = 0) (hstate : job.state = .background)
    (wakes : List (List (List SigInfo))) :
    Ends (World.handleJob r wakes) (fun _ w' => w'.Accounted) Leaves w := by
  rw [World.handleJob]
  refine ends_lift_bind.mpr ((ends_deref hr).mpr ?_)
  rw [hstate]
  have hadd := (proceeds_addJobToTable r).ends
    (ends_addJobToTable_table h.tidy.toTable hr hid (Or.inl hstate))
  refine ends_lift_bind.mpr (hadd.mono ?_ fun _ _ he => he.leaves)
  rintro - s ⟨⟨rfl, -⟩, -⟩
  exact hk.move (.list hr)

structure Placeholder (w : World) (r : Ref) (job : Job) : Prop where
  whole : Whole w (some r)
  front : InFront w.shell r
  heap : w.shell.heap r = some job
  expects : ∀ pid, ¬ job.Expects pid

lemma Placeholder.removed (h : Placeholder w r job) :
    Whole { w with shell := (w.shell.free r).setFront none } none := by
  have hid := h.whole.tidy.front r job h.front.slot h.heap
  refine h.whole.move ?_ h.whole.housed.free.setFront ?_
  · exact (h.whole.tidy.toTable.free (h.whole.tidy.not_listed h.heap hid)).clearFront
  · exact (Retains.of_remembers (.free w.shell r)).trans (.setFront _ none)

lemma Placeholder.expecting (h : Placeholder w r job) :
    Expecting w.shell ((w.shell.free r).setFront none) :=
  (Expecting.free h.heap h.expects).trans (.of_heap rfl)

lemma Placeholder.childless (h : Placeholder w r job) (hk : w.Accounted)
    (hempty : w.shell.jobs.numJobs = 0) : w.Childless := by
  intro hp pid
  cases hc : w.children pid with
  | none => rfl
  | some q =>
    obtain ⟨job', hq, he⟩ := hk hp pid q hc
    rcases h.whole.housed q (by rw [hq]; rintro ⟨⟩) with hout | ⟨i, hi, hslot⟩
    · rw [← Option.some.inj hout, h.heap, Option.some.injEq] at hq
      exact absurd (hq ▸ he) (h.expects pid)
    · have hcard := h.whole.tidy.counts.count_eq.symm.trans hempty
      have hmem := h.whole.tidy.occupied_of_slot hi hslot
      rw [Finset.card_eq_zero.mp hcard] at hmem
      exact absurd hmem (Finset.notMem_empty i)

lemma Whole.lift_bring {f : Unit → WorldM β} {Q : β → World → Prop} {E : Stop → World → Prop}
    (h : Whole w out) (hr : w.shell.heap r = some job)
    (hslot : job.id = 0 ∨ w.shell.jobs.table job.id = some r)
    (hh : Housed (w.shell.fetch job) (some r))
    (hQ : Whole { w with shell := w.shell.bring r job } (some r) →
      Ends (f ()) Q E { w with shell := w.shell.bring r job }) :
    Ends (liftM (setForegroundJob r) >>= f) Q E w := by
  refine ends_lift_bind.mpr (((ends_setForegroundJob_bring h.tidy hr hslot).and
    (moves_setForegroundJob r _)).mono ?_ fun _ _ he => he.1)
  rintro - s ⟨rfl, hremembers⟩
  have hheap := (h.tidy.fetched hr hslot).heap
  exact hQ (h.move (h.tidy.bring hr hslot).1 (hh.bring hheap) (.of_remembers hremembers))

lemma ends_runFg_accounted (h : Placeholder w r job) (hk : w.Accounted) (operands : List Bytes)
    (wakes : List (List (List SigInfo))) :
    Ends (World.runFg operands wakes) (fun _ w' => w'.Accounted) Leaves w := by
  have h₁ := h.removed
  have hk₁ := hk.move h.expecting
  refine ends_lift_bind.mpr ((ends_removeForegroundJob_true h.front.slot h.heap).mpr ?_)
  refine ends_lift_bind.mpr (ends_isJobTableEmpty.mpr (ends_ite.mpr ⟨fun _ => hk₁, fun _ => ?_⟩))
  rw [ends_bind, ends_modify]
  refine ends_lift_bind.mpr (ends_get.mpr ?_)
  have hmove := fun elseValue => (proceeds_getJobToMove structural_true.toSteady operands elseValue).ends
    (ends_getJobToMove h₁.tidy State.setFront_front operands elseValue)
  refine ends_lift_bind.mpr ((hmove _).mono ?_ fun _ _ he => he.leaves)
  rintro o s ⟨⟨rfl, hchosen⟩, -⟩
  cases o with
  | none => exact hk₁.searching
  | some q =>
    obtain ⟨job₁, hq, hid, hslot⟩ := hchosen q rfl
    have hfetch : Housed (((w.shell.free r).setFront none).fetch job₁) (some q) := by
      rw [State.fetch, if_neg (Nat.ne_of_gt hid)]
      exact h₁.housed.unlist hslot
    apply h₁.searching.lift_bring hq (Or.inr hslot) hfetch
    intro h₂
    obtain ⟨-, hf₂, hq₂⟩ := h₁.tidy.bring hq (Or.inr hslot)
    have hheap := (h₁.tidy.fetched hq (Or.inr hslot)).heap
    exact ends_handleJob_foreground_accounted h₂ hf₂ (hk₁.searching.move (.bring hheap)) hq₂ rfl wakes

lemma ends_runBg_accounted (h : Placeholder w r job) (hk : w.Accounted) (operands : List Bytes) :
    Ends (World.runBg operands) (fun _ w' => w'.Accounted) Leaves w := by
  have h₁ := h.removed
  have hk₁ := hk.move h.expecting
  refine ends_lift_bind.mpr ((ends_removeForegroundJob_true h.front.slot h.heap).mpr ?_)
  rw [ends_bind, ends_modify]
  have hreads : Reads getHighestStoppedJobId := reads_get.bind fun _ => reads_highestStoppedFrom _
  have helse := (proceeds_getHighestStoppedJobId structural_true.toSteady).ends
    (hreads ((w.shell.free r).setFront none))
  refine ends_lift_bind.mpr (helse.mono ?_ fun _ _ he => he.leaves)
  rintro elseValue s ⟨rfl, -⟩
  have hmove := (proceeds_getJobToMove structural_true.toSteady operands elseValue).ends
    (ends_getJobToMove h₁.tidy State.setFront_front operands elseValue)
  refine ends_lift_bind.mpr (hmove.mono ?_ fun _ _ he => he.leaves)
  rintro o s ⟨⟨rfl, hchosen⟩, -⟩
  cases o with
  | none =>
    refine ends_lift_bind.mpr (ends_isJobTableEmpty.mpr (ends_ite.mpr ⟨fun _ => ?_, fun _ => ?_⟩))
    · exact hk₁.searching
    · exact hk₁.searching
  | some q =>
    obtain ⟨job₁, hq, -, -⟩ := hchosen q rfl
    refine ends_lift_bind.mpr ((ends_modifyJob hq).mpr ?_)
    refine ends_lift_bind.mpr ((ends_modifyJob State.put_self).mpr ?_)
    have hput : Expecting ((w.shell.free r).setFront none)
        ((((w.shell.free r).setFront none).put q (job₁.setJobProcessState .running)).put q
          job₁.moveToBackground) := by
      have hback : Expecting ((w.shell.free r).setFront none)
          (((w.shell.free r).setFront none).put q job₁.moveToBackground) :=
        .put hq fun _ he => he.moveToBackground
      refine hback.trans (.of_heap ?_)
      exact Function.update_idem _ _ _
    exact hk₁.searching.move hput

def Fronted (r : Ref) (job : Job) (w : World) : Prop :=
  w.Accounted ∧ (w.shell.jobs.table 0 = some r → w.shell.heap r = some job)

lemma ends_runBuiltinCommand_accounted (h : Placeholder w r job) (hk : w.Accounted) (name : Bytes)
    (operands : List Bytes) (lastStatus : ℤ) (a : Answers)
    (hexit : name = ascii "exit" → w.shell.jobs.numJobs = 0) :
    Ends (World.runBuiltinCommand name operands lastStatus a) (fun _ => Fronted r job) Leaves w := by
  have hsame : Fronted r job w := ⟨hk, fun _ => h.heap⟩
  rw [World.runBuiltinCommand]
  split_ifs with hname
  · have hchildless := h.childless hk (hexit hname)
    refine ends_lift.mpr ((reads_runExit operands lastStatus w.shell).mono ?_ ?_)
    · rintro status s rfl
      exact hsame
    · rintro e s rfl status -
      exact hchildless
  · exact hsame
  · exact hsame
  · have hjobs := (proceeds_runJobs structural_true.toSteady).ends (reads_runJobs w.shell)
    refine ends_lift.mpr (hjobs.mono ?_ fun _ _ he => he.leaves)
    rintro status s ⟨rfl, -⟩
    exact hsame
  · have hfg := ends_runFg_whole h.whole h.front operands a.wakes
    refine (hfg.and (ends_runFg_accounted h hk operands a.wakes)).mono ?_ fun _ _ he => he.2
    rintro status w' ⟨⟨-, hempty⟩, hk'⟩
    refine ⟨hk', fun hslot => ?_⟩
    cases hempty.symm.trans hslot
  · have hbg := ends_runBg_whole h.whole h.front operands
    refine (hbg.and (ends_runBg_accounted h hk operands)).mono ?_ fun _ _ he => he.2
    rintro status w' ⟨⟨-, hempty⟩, hk'⟩
    refine ⟨hk', fun hslot => ?_⟩
    cases hempty.symm.trans hslot
  · exact hsame

lemma ends_runRedirected_accounted (h : Placeholder w r job) (hk : w.Accounted) (name : Bytes)
    (operands : List Bytes) (lastStatus : ℤ) (a : Answers)
    (hexit : name = ascii "exit" → w.shell.jobs.numJobs = 0) :
    Ends (World.runRedirected name operands lastStatus a) (fun _ => Fronted r job) Leaves w := by
  have hsame : Fronted r job w := ⟨hk, fun _ => h.heap⟩
  rw [World.runRedirected]
  split_ifs
  · exact hsame
  · exact hsame
  · exact hsame
  · rw [ends_bind]
    exact ends_runBuiltinCommand_accounted h hk name operands lastStatus a hexit
  · rw [ends_bind]
    exact ends_runBuiltinCommand_accounted h hk name operands lastStatus a hexit

lemma Whole.alloc (h : Whole w none) : Whole { w with shell := w.shell.alloc } (some w.shell.next) :=
  h.move h.tidy.alloc h.housed.alloc (.of_remembers (.alloc w.shell))

lemma World.Accounted.alloc (hk : w.Accounted) (h : Whole w none) :
    World.Accounted { w with shell := w.shell.alloc } :=
  hk.move (.alloc (h.tidy.unused w.shell.next le_rfl).1)

lemma Job.not_expects_of_nil {pid : ℤ} (h : job.processes = []) : ¬ job.Expects pid := by
  intro he
  obtain ⟨p, hp, -⟩ := he.running
  rw [h] at hp
  cases hp

lemma ends_runSingleBuiltinCommand_accounted (h : Whole w none) (hk : w.Accounted)
    (command : Command) (lastStatus : ℤ) (a : Answers) :
    Ends (World.runSingleBuiltinCommand command lastStatus a) (fun _ w' => w'.Accounted) Leaves w := by
  rw [World.runSingleBuiltinCommand]
  cases command.args with
  | nil =>
    rintro status ⟨⟩
  | cons name operands =>
    refine ends_lift_bind.mpr (ends_isJobTableEmpty.mpr (ends_ite.mpr ⟨fun _ => hk, fun hempty => ?_⟩))
    refine ends_lift_bind.mpr (ends_defaultJob.mpr ?_)
    have hr₁ : w.shell.alloc.heap w.shell.next = some newJob := State.alloc_self
    apply h.alloc.lift_bring hr₁ (Or.inl rfl) h.alloc.housed
    intro h₂
    obtain ⟨-, hf₂, hr₂⟩ := h.alloc.tidy.bring hr₁ (Or.inl rfl)
    have hk₂ := (hk.alloc h).move (.bring (h.alloc.tidy.fetched hr₁ (Or.inl rfl)).heap)
    have hholder : Placeholder { w with shell := w.shell.alloc.bring w.shell.next newJob } w.shell.next
        newJob.moveToForeground := ⟨h₂, hf₂, hr₂, fun pid => Job.not_expects_of_nil rfl⟩
    have hexit : name = ascii "exit" → w.shell.jobs.numJobs = 0 := by
      intro hname
      by_contra hne
      exact hempty ⟨hname, beq_eq_false_iff_ne.mpr hne⟩
    rw [ends_bind]
    refine (ends_runRedirected_accounted hholder hk₂ name operands lastStatus a hexit).imp ?_
    rintro status w₃ ⟨hk₃, hfront⟩
    refine ends_lift_bind.mpr ((ends_slot (Nat.zero_le _)).mpr (ends_ite.mpr ⟨fun hs => ?_, fun _ => hk₃⟩))
    refine ends_lift_bind.mpr ((ends_removeForegroundJob_true hs (hfront hs)).mpr ?_)
    have hfree : Expecting w₃.shell (w₃.shell.free w.shell.next) :=
      .free (hfront hs) fun _ => Job.not_expects_of_nil rfl
    exact hk₃.move (hfree.trans (.of_heap rfl))

def Answers.ForksWork (a : Answers) : Prop := ∀ k, ∃ pid, (a.spawn k).fork = some pid ∧ 0 < pid

structure Filling (w : World) (r : Ref) (job : Job) : Prop where
  heap : w.shell.heap r = some job
  not_done : job.state ≠ .done
  grouped : job.pgid = -1 ∨ 0 < job.pgid
  children : ∀ p ∈ job.processes, w.children p.pid = some r

lemma World.Accounted.start (hk : w.Accounted) (h : Filling w r job) {pid : ℤ} (hpid : 0 < pid)
    (left : ℤ → Bool) :
    World.Accounted { w.starting r pid left with shell := w.shell.put r (job.startProcess pid) } := by
  intro hp pid' q hc
  have hold : w.Possible := fun n hn => hp n (List.mem_cons_of_mem _ hn)
  have hc : Function.update w.children pid (some r) pid' = some q := hc
  by_cases hnew : pid' = pid
  · rw [hnew, Function.update_self, Option.some.injEq] at hc
    subst hc
    -- The kernel gives no pid away that a process of the job has.
    have hfree : w.children pid = none := (hp _ List.mem_cons_self).1
    have hget : getProcess job.processes pid = none := by
      rw [getProcess, List.find?_eq_none]
      intro p hmem he
      have hchild := h.children p hmem
      rw [beq_iff_eq.mp he, hfree] at hchild
      cases hchild
    rw [hnew]
    exact ⟨_, State.put_self, Job.expects_startProcess h.not_done h.grouped hpid hget⟩
  · rw [Function.update_of_ne hnew] at hc
    obtain ⟨job', hq, he⟩ := hk hold pid' q hc
    by_cases hqr : q = r
    · subst hqr
      rw [h.heap, Option.some.injEq] at hq
      exact ⟨_, State.put_self, (hq ▸ he).startProcess pid⟩
    · exact ⟨job', (State.put_of_ne hqr).trans hq, he⟩

lemma Filling.start (h : Filling w r job) {pid : ℤ} (hpid : 0 < pid) (left : ℤ → Bool) :
    Filling { w.starting r pid left with shell := w.shell.put r (job.startProcess pid) } r
      (job.startProcess pid) where
  heap := State.put_self
  not_done := h.not_done
  grouped := by
    rw [Job.startProcess]
    split_ifs with he
    · exact Or.inr hpid
    · exact Or.inr (h.grouped.resolve_left he)
  children p hmem := by
    change Function.update w.children pid (some r) p.pid = some r
    by_cases he : p.pid = pid
    · rw [he, Function.update_self]
    · rw [Function.update_of_ne he]
      rcases List.mem_append.mp hmem with hold | hnew
      · exact h.children p hold
      · rw [List.mem_singleton.mp hnew] at he
        exact absurd rfl he

lemma ends_startFrom_accounted (hk : w.Accounted) (h : Filling w r job) {a : Answers}
    (hpipes : a.PipesWork) (hforks : a.ForksWork) (k : ℕ) (commands : List Command) :
    Ends (World.startFrom r a.spawn k commands) (fun b w' => b = true ∧ w'.Accounted) Leaves w := by
  induction commands generalizing w job k with
  | nil => exact ⟨rfl, hk⟩
  | cons command commands ih =>
    obtain ⟨pid, hfork, hpid⟩ := hforks k
    rw [World.startFrom, if_neg (fun hc => Bool.false_ne_true ((hpipes k).symm.trans hc.2)), hfork]
    simp only
    rw [ends_bind, ends_modify]
    have hr : (w.starting r pid (a.spawn k).told.left).shell.heap r = some job := h.heap
    refine ends_lift_bind.mpr ((ends_modifyJob hr).mpr ?_)
    exact ih (hk.start h hpid _) (h.start hpid _) (k + 1)

lemma ends_runPipeline_accounted (h : Whole w none) (hk : w.Accounted) (pipeline : Pipeline)
    {a : Answers} (hpipes : a.PipesWork) (hforks : a.ForksWork) :
    Ends (World.runPipeline pipeline a) (fun _ w' => w'.Accounted) Leaves w := by
  rw [World.runPipeline]
  refine ends_lift_bind.mpr (ends_defaultJob.mpr ?_)
  have h₁ := h.alloc
  have hk₁ := hk.alloc h
  have hr₁ : w.shell.alloc.heap w.shell.next = some newJob := State.alloc_self
  cases pipeline.isInBackground with
  | true =>
    rw [if_pos rfl]
    refine ends_lift_bind.mpr ((ends_modifyJob hr₁).mpr ?_)
    have h₂ := h₁.move (h₁.tidy.putBackground hr₁ rfl) (h₁.housed.put hr₁) (.put hr₁ fun _ => id)
    have hput : Expecting w.shell.alloc
        (w.shell.alloc.put w.shell.next { newJob with state := .background }) :=
      .put hr₁ fun pid he => absurd he (Job.not_expects_of_nil rfl)
    have hk₂ := hk₁.move hput
    rw [ends_bind]
    have hstart := ends_startFrom_accounted hk₂ ⟨State.put_self, by rintro ⟨⟩, Or.inl rfl, by rintro p ⟨⟩⟩
      hpipes hforks 0 pipeline.commands
    refine ((ends_startFrom_whole h₂ State.put_self rfl a.spawn 0 pipeline.commands).and hstart).mono
      ?_ fun _ _ he => he.2
    rintro b w₃ ⟨⟨htrue, -⟩, rfl, hk₃⟩
    obtain ⟨h₃, -, job, hr, hid, hst⟩ := htrue rfl
    exact ends_handleJob_background_accounted h₃ hk₃ hr hid hst a.wakes
  | false =>
    rw [if_neg Bool.false_ne_true]
    apply h₁.lift_bring hr₁ (Or.inl rfl) h₁.housed
    intro h₂
    obtain ⟨-, hf₂, hr₂⟩ := h₁.tidy.bring hr₁ (Or.inl rfl)
    have hk₂ := hk₁.move (.bring (h₁.tidy.fetched hr₁ (Or.inl rfl)).heap)
    rw [ends_bind]
    have hstart := ends_startFrom_accounted hk₂ ⟨hr₂, by rintro ⟨⟩, Or.inl rfl, by rintro p ⟨⟩⟩
      hpipes hforks 0 pipeline.commands
    refine ((ends_startFrom_whole h₂ hr₂ rfl a.spawn 0 pipeline.commands).and hstart).mono
      ?_ fun _ _ he => he.2
    rintro b w₃ ⟨⟨htrue, -⟩, rfl, hk₃⟩
    obtain ⟨h₃, hfront, job, hr, -, hst⟩ := htrue rfl
    have hf₃ : InFront w₃.shell w.shell.next := by
      refine ⟨hfront.trans hf₂.slot, ?_⟩
      rw [hr]
      rintro ⟨⟩
    exact ends_handleJob_foreground_accounted h₃ hf₃ hk₃ hr hst a.wakes

lemma ends_interpret_accounted (h : Whole w none) (hk : w.Accounted) (pipeline : Pipeline)
    (lastStatus : ℤ) {a : Answers} (hpipes : a.PipesWork) (hforks : a.ForksWork) :
    Ends (World.interpret pipeline lastStatus a) (fun _ w' => w'.Accounted) Leaves w := by
  rw [World.interpret]
  split
  · exact hk
  · split_ifs
    · exact ends_runSingleBuiltinCommand_accounted h hk _ lastStatus a
    · exact ends_runPipeline_accounted h hk pipeline hpipes hforks
  · exact ends_runPipeline_accounted h hk pipeline hpipes hforks

def Input.ForksWork : Input → Prop
  | .sigchld _ | .sigint => True
  | .pipeline _ a => a.ForksWork

lemma ends_runInput_accounted (h : Whole w none) (hk : w.Accounted) (lastStatus : ℤ)
    {input : Input} (hpipes : input.PipesWork) (hforks : input.ForksWork) :
    Ends (World.runInput lastStatus input) (fun _ w' => w'.Accounted) Leaves w := by
  cases input with
  | sigchld rounds =>
    rw [World.runInput, ends_bind]
    exact ends_handlePendingSigchld_accounted hk rounds
  | sigint => exact hk
  | pipeline p a => exact ends_interpret_accounted h hk p lastStatus hpipes hforks

end SystemsLab.Shell
