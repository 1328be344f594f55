import SystemsLab.Shell.Holder
import SystemsLab.Shell.Lookups
import Mathlib.Data.Set.Defs

namespace SystemsLab.Shell

open Effects Tables Plumbing

def openFds (table : Plumbing.Table) : Set ℕ := {fd | table.get fd ≠ none}

structure FailsAt (spawn : ℕ → Spawn) (k n : ℕ) : Prop where
  next : k + 1 < n
  fails : (spawn k).pipeFails = true
  pipes : ∀ j < k, (spawn j).pipeFails = false
  forks : ∀ j < k, (spawn j).fork ≠ none

structure AsBefore (h h' : Holder) : Prop where
  jobs : h'.shell.jobs = h.shell.jobs
  fds : openFds h'.fds = openFds h.fds
  alive : ∀ i r, h'.shell.jobs.table i = some r → h'.shell.heap r ≠ none

def LeavesAsBefore (m : HolderM ℤ) (h : Holder) : Prop :=
  ∃ status h', m h = .ok status h' ∧ AsBefore h h'

structure BrokenOff (s : State) (base : Plumbing.Table) (r : Ref) (k : ℕ) (h' : Holder) : Prop where
  shell : h'.shell = s.free r
  fds : ∃ i, Plumbed base h'.fds i none (pipeIn k) none

variable {base table : Plumbing.Table} {s : State} {r : Ref} {job job' : Job} {spawn : ℕ → Spawn}
  {i : Option ℕ} {x : Option OpenFile} {k m n : ℕ} {commands : List Command} {h h' : Holder}

lemma mem_openFds {fd : ℕ} : fd ∈ openFds table ↔ table.get fd ≠ none := Iff.rfl

lemma put_free : (s.put r job).free r = s.free r := by
  simp only [State.put, State.free, Function.update_idem]

namespace Holder

lemma ends_startFrom_pipe (hr : s.heap r = some job) (hfails : (spawn k).pipeFails = true)
    (command : Command) (hne : commands ≠ []) :
    Ends (startFrom r spawn k i (command :: commands))
      (fun b h' => b = false ∧ h' = ⟨s.free r, table⟩) (fun _ _ => 0 < job.pgid) ⟨s, table⟩ := by
  have hpipe : pipeToNext (commands ≠ []) (spawn k).pipeFails k table = none :=
    pipeToNext_eq_none.mpr ⟨decide_eq_true hne, hfails⟩
  rw [startFrom, ends_bind, ends_get, hpipe, ends_lift_bind, ends_deref hr, ends_lift_bind]
  refine ends_endGroup ?_ fun hpos _ => hpos
  rw [ends_lift_bind, ends_freeJob hr, ends_pure]
  exact ⟨rfl, rfl⟩

lemma ends_startFrom_stage {Q : Bool → Holder → Prop} {E : Stop → Holder → Prop} {pid : ℤ}
    {pipefd : Option (ℕ × ℕ)} {table' : Plumbing.Table} (hr : s.heap r = some job)
    (hpipe : pipeToNext (commands ≠ []) (spawn k).pipeFails k table = some (pipefd, table'))
    (hfork : (spawn k).fork = some pid) (command : Command) :
    Ends (startFrom r spawn k i (command :: commands)) Q E ⟨s, table⟩ ↔
      Ends (startFrom r spawn (k + 1) (pipefd.map Prod.fst) commands) Q E
        ⟨s.put r (job.startProcess pid),
          closeFd (if k ≠ 0 then closeFd table' i else table') (pipefd.map Prod.snd)⟩ := by
  rw [startFrom, ends_bind, ends_get, hpipe, ends_bind, ends_onFds, hfork, ends_lift_bind,
    ends_modifyJob hr, ends_bind, ends_onFds, ends_bind, ends_onFds]

theorem ends_startFrom_runFrom {c : ℕ → ChildAnswers} {commands' : List CommandLine.Command}
    {table' : Plumbing.Table} {children : List (Except ℤ Plumbing.Table)}
    (hlength : commands'.length = commands.length) (hr : s.heap r = some job)
    (hrun : runFrom spawn c k i table commands' = some (table', children)) :
    Ends (startFrom r spawn k i commands) (fun b h' => b = true ∧ h'.fds = table')
      (fun _ _ => False) ⟨s, table⟩ := by
  induction commands' generalizing commands k i table s job children with
  | nil =>
    obtain rfl := List.length_eq_zero_iff.mp hlength.symm
    cases hrun
    exact ⟨rfl, rfl⟩
  | cons command' commands' ih =>
    cases commands with
    | nil => cases hlength
    | cons command commands =>
      have hlength : commands'.length = commands.length := Nat.succ.inj hlength
      have hnext : decide (commands' ≠ []) = decide (commands ≠ []) := by
        rw [decide_eq_decide, ← List.length_pos_iff, ← List.length_pos_iff, hlength]
      rw [runFrom, hnext] at hrun
      obtain ⟨⟨pipefd, table₁⟩, hpipe, hrun⟩ := Option.bind_eq_some_iff.mp hrun
      obtain ⟨pid, hfork, hrun⟩ := Option.bind_eq_some_iff.mp hrun
      obtain ⟨⟨table₂, children₂⟩, hrest, hrun⟩ := Option.bind_eq_some_iff.mp hrun
      cases hrun
      rw [ends_startFrom_stage hr hpipe hfork]
      exact ih hlength State.put_self hrest

lemma ends_startFrom_fails (hk : FailsAt spawn m n) (hle : k ≤ m) (hn : k + commands.length = n)
    (hr : s.heap r = some job) (hgroup : k = 0 → job.pgid = -1)
    (hp : Plumbed base table i none (pipeIn k) none) :
    Ends (startFrom r spawn k i commands) (fun b h' => b = false ∧ BrokenOff s base r m h')
      (fun _ _ => m ≠ 0) ⟨s, table⟩ := by
  have hnext := hk.next
  induction commands generalizing k i table s job with
  | nil =>
    rw [List.length_nil] at hn
    omega
  | cons command commands ih =>
    rw [List.length_cons] at hn
    have hne : commands ≠ [] := by
      rintro rfl
      rw [List.length_nil] at hn
      omega
    rcases Nat.eq_or_lt_of_le hle with rfl | hlt
    · refine (ends_startFrom_pipe hr hk.fails command hne).mono ?_ fun _ _ hpos h0 => ?_
      · rintro b h' ⟨rfl, rfl⟩
        exact ⟨rfl, rfl, i, hp⟩
      · rw [hgroup h0] at hpos
        exact absurd hpos (by decide)
    · obtain ⟨pid, hfork⟩ := Option.ne_none_iff_exists'.mp (hk.forks k hlt)
      have hlast : k + 1 < n := by omega
      obtain ⟨pipefd, table', hpipe, -, -, x', hx', hshell⟩ :=
        pipeToNext_ok ((iff_true_right hlast).mpr (decide_eq_true hne)) hp
      rw [hx' hlast] at hshell
      rw [← hk.pipes k hlt] at hpipe
      have hclose : (if k ≠ 0 then closeFd table' i else table') = closeFd table' i := by
        split_ifs with h0
        · rfl
        · rw [hp.input.mp (if_pos (not_not.mp h0))]
          rfl
      rw [ends_startFrom_stage hr hpipe hfork, hclose]
      refine (ih (Nat.succ_le_of_lt hlt) (by omega) State.put_self (by omega) hshell).imp ?_
      rintro b h' ⟨rfl, hbroken⟩
      exact ⟨rfl, hbroken.shell.trans put_free, hbroken.fds⟩

def entering (pipeline : Pipeline) (s : State) : State :=
  if pipeline.isInBackground then s.alloc else s.alloc.bring s.next newJob

lemma ends_runPipeline_fails (fds : Plumbing.Table) (ht : Tidy s none) {pipeline : Pipeline}
    {a : Answers} (hk : FailsAt a.spawn m pipeline.commands.length) :
    Ends (runPipeline pipeline a)
      (fun _ h' => BrokenOff (entering pipeline s) fds s.next m h') (fun _ _ => m ≠ 0) ⟨s, fds⟩ := by
  have hfails : ∀ {s₁ : State} {job : Job}, s₁.heap s.next = some job → job.pgid = -1 →
      Ends (do
          if ← startFrom s.next a.spawn 0 none pipeline.commands then handleJob s.next a.wakes
          else return 1)
        (fun _ h' => BrokenOff s₁ fds s.next m h') (fun _ _ => m ≠ 0) ⟨s₁, fds⟩ := by
    intro s₁ job hr hgroup
    rw [ends_bind]
    refine (ends_startFrom_fails hk (Nat.zero_le m) (Nat.zero_add _) hr (fun _ => hgroup) (.refl fds)).imp ?_
    rintro b h' ⟨rfl, hbroken⟩
    exact hbroken
  rw [runPipeline, ends_lift_bind, ends_defaultJob, entering]
  cases pipeline.isInBackground with
  | true =>
    rw [if_pos rfl, if_pos rfl, ends_lift_bind, ends_modifyJob State.alloc_self]
    refine (hfails State.put_self rfl).imp fun _ h' hbroken => ?_
    exact ⟨hbroken.shell.trans put_free, hbroken.fds⟩
  | false =>
    rw [if_neg Bool.false_ne_true, if_neg Bool.false_ne_true, ends_lift_bind]
    have ha := ht.alloc
    refine (ends_setForegroundJob_bring ha State.alloc_self (Or.inl rfl)).mono ?_ fun _ _ => False.elim
    rintro - s₁ rfl
    exact hfails (ha.bring State.alloc_self (Or.inl rfl)).2.2 rfl

end Holder

lemma BrokenOff.openFds_iff (hb : BrokenOff s base r k h') :
    openFds h'.fds = openFds base ↔ k = 0 := by
  obtain ⟨i, hp⟩ := hb.fds
  constructor
  · intro he
    by_contra h0
    have hin : pipeIn k ≠ none := by
      rw [pipeIn, if_neg h0]
      exact Option.some_ne_none _
    obtain ⟨fd, hfd⟩ := Option.ne_none_iff_exists'.mp fun hi => hin (hp.input.mpr hi)
    have hopen : fd ∈ openFds h'.fds := by
      rw [mem_openFds, hp.get fd, if_pos hfd]
      exact hin
    rw [he] at hopen
    exact hopen (hp.inFree fd hfd)
  · rintro rfl
    obtain rfl : i = none := hp.input.mp (if_pos rfl)
    ext fd
    rw [mem_openFds, mem_openFds, hp.get fd]
    exact Iff.rfl

lemma alive_free_alloc_iff (ht : Tidy s none) :
    (∀ i r, s.jobs.table i = some r → (s.alloc.free s.next).heap r ≠ none) ↔ FrontAlive s := by
  have hold : ∀ i r, s.jobs.table i = some r → (s.alloc.free s.next).heap r = s.heap r := by
    intro i r hi
    have hne : r ≠ s.next := by
      rintro rfl
      exact (ht.unused s.next le_rfl).2 i hi
    rw [State.free_of_ne hne, State.alloc_of_ne hne]
  constructor
  · intro halive r hr
    have hr' := halive 0 r hr
    rwa [hold 0 r hr] at hr'
  · intro hf i r hi
    obtain ⟨job, hr⟩ := ht.alive hf hi
    rw [hold i r hi, hr]
    exact Option.some_ne_none job

lemma not_leavesAsBefore_foreground (ht : Tidy s none) {pipeline : Pipeline} {a : Answers}
    (hk : FailsAt a.spawn k pipeline.commands.length) (hfg : pipeline.isInBackground = false) :
    ¬ LeavesAsBefore (Holder.runPipeline pipeline a) ⟨s, base⟩ := by
  rintro ⟨status, h', hrun, hbefore⟩
  have hb := (Holder.ends_runPipeline_fails base ht hk).ok hrun
  have hshell := hb.shell
  rw [Holder.entering, hfg, if_neg Bool.false_ne_true] at hshell
  apply hbefore.alive 0 s.next
  · rw [hshell]
    exact State.setFront_front
  · rw [hshell, State.free_self]

def twoLs (isInBackground : Bool) : Pipeline :=
  ⟨isInBackground, [⟨[CLib.ascii "ls"], .other⟩, ⟨[CLib.ascii "ls"], .other⟩]⟩

def pipeless : Answers := ⟨fun _ => ⟨true, none, .obeyed⟩, [], false, 0, false, 0⟩

lemma failsAt_pipeless (isInBackground : Bool) :
    FailsAt pipeless.spawn 0 (twoLs isInBackground).commands.length :=
  ⟨Nat.one_lt_two, rfl, nofun, nofun⟩

lemma reached_initialState : Reached [] initialState := Or.inl ⟨0, rfl⟩

theorem pipe_failure_undone_iff (inputs : List Input) (s : State) (h : Reached inputs s)
    (fds : Plumbing.Table) (pipeline : Pipeline) (a : Answers) (k : ℕ)
    (hk : FailsAt a.spawn k pipeline.commands.length) :
    LeavesAsBefore (Holder.runPipeline pipeline a) ⟨s, fds⟩ ↔
      pipeline.isInBackground = true ∧ k = 0 ∧ FrontAlive s := by
  have ht := h.tidy
  cases hbg : pipeline.isInBackground with
  | false =>
    constructor
    · exact fun hleaves => absurd hleaves (not_leavesAsBefore_foreground ht hk hbg)
    · rintro ⟨⟨⟩, -⟩
  | true =>
    have hfails := Holder.ends_runPipeline_fails fds ht hk
    have hiff : ∀ {h'}, BrokenOff (Holder.entering pipeline s) fds s.next k h' →
        (AsBefore ⟨s, fds⟩ h' ↔ k = 0 ∧ FrontAlive s) := by
      intro h' hb
      have hshell := hb.shell
      rw [Holder.entering, hbg, if_pos rfl] at hshell
      rw [← hb.openFds_iff, ← alive_free_alloc_iff ht]
      constructor
      · rintro ⟨-, hfds, halive⟩
        rw [hshell] at halive
        exact ⟨hfds, halive⟩
      · rintro ⟨hfds, halive⟩
        refine ⟨?_, hfds, ?_⟩
        · rw [hshell]
          rfl
        · rw [hshell]
          exact halive
    constructor
    · rintro ⟨status, h', hrun, hbefore⟩
      exact ⟨rfl, (hiff (hfails.ok hrun)).mp hbefore⟩
    · rintro ⟨-, hzero⟩
      obtain ⟨status, h', hrun, hb⟩ := (hfails.mono (fun _ _ hb => hb) fun _ _ hne => hne hzero.1).exists_ok
      exact ⟨status, h', hrun, (hiff hb).mpr hzero⟩

theorem pipe_failure_undone_background :
    LeavesAsBefore (Holder.runPipeline (twoLs true) pipeless)
      ⟨initialState, inherit ⟨[some 0, some 1, some 2]⟩⟩ :=
  (pipe_failure_undone_iff [] initialState reached_initialState _ (twoLs true) pipeless 0
    (failsAt_pipeless true)).mpr ⟨rfl, rfl, nofun⟩

theorem pipe_failure_stays :
    ¬ ∀ (inputs : List Input) (s : State), Reached inputs s →
      ∀ (fds : Plumbing.Table) (pipeline : Pipeline) (a : Answers) (k : ℕ),
        FailsAt a.spawn k pipeline.commands.length →
          LeavesAsBefore (Holder.runPipeline pipeline a) ⟨s, fds⟩ := by
  intro hclaim
  have hleaves := hclaim [] initialState reached_initialState (inherit ⟨[some 0, some 1, some 2]⟩)
    (twoLs false) pipeless 0 (failsAt_pipeless false)
  exact not_leavesAsBefore_foreground initialState_tidy (failsAt_pipeless false) rfl hleaves

end SystemsLab.Shell
