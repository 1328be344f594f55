import SystemsLab.Shell.World
import SystemsLab.Shell.Infos
import SystemsLab.Shell.Commands

namespace SystemsLab.Shell

open Effects Tables CLib

def Job.Lists (job : Job) (pid : ℤ) : Prop := (getProcess job.processes pid).isSome = true

structure Retains (s s' : State) : Prop where
  next_le : s.next ≤ s'.next
  heap : ∀ r job', r < s.next → s'.heap r = some job' →
    ∃ job, s.heap r = some job ∧ ∀ pid, job.Lists pid → job'.Lists pid

def Housed (s : State) (out : Option Ref) : Prop :=
  ∀ q, s.heap q ≠ none → out = some q ∨ ∃ i, 1 ≤ i ∧ s.jobs.table i = some q

def Note.Sound : Note → Prop
  | .started _ _ _ => True
  | .reported info owner before => Tidy before none ∧
      ∀ r job, owner = some r → before.heap r = some job →
        (∃ i, before.jobs.table i = some r) ∧ job.Lists info.siPid
  | .searched before => Tidy before none

def World.Sound (w : World) : Prop := ∀ n ∈ w.notes, n.Sound

structure World.Known (w : World) : Prop where
  lt_next : ∀ pid r, w.children pid = some r → r < w.shell.next
  lists : ∀ pid r job, w.children pid = some r → w.shell.heap r = some job → job.Lists pid

structure Whole (w : World) (out : Option Ref) : Prop where
  tidy : Tidy w.shell none
  housed : Housed w.shell out
  known : w.Known
  sound : w.Sound

def Noted (_ : Stop) (w : World) : Prop := w.Sound

section Memory

variable {s s' s'' : State} {r : Ref} {job job' : Job} {out : Option Ref} {i : ℕ} {v : Option Ref}

namespace Retains

lemma refl (s : State) : Retains s s := ⟨le_rfl, fun _ job' _ hr => ⟨job', hr, fun _ => id⟩⟩

lemma trans (h : Retains s s') (h' : Retains s' s'') : Retains s s'' where
  next_le := h.next_le.trans h'.next_le
  heap r job'' hr hj := by
    obtain ⟨job', hj', hl'⟩ := h'.heap r job'' (hr.trans_le h.next_le) hj
    obtain ⟨job, hj, hl⟩ := h.heap r job' hr hj'
    exact ⟨job, hj, fun pid hp => hl' pid (hl pid hp)⟩

lemma put (hr : s.heap r = some job) (h : ∀ pid, job.Lists pid → job'.Lists pid) :
    Retains s (s.put r job') where
  next_le := le_rfl
  heap q job'' _ hj := by
    by_cases hqr : q = r
    · subst hqr
      rw [State.put_self, Option.some.injEq] at hj
      exact ⟨job, hr, hj ▸ h⟩
    · rw [State.put_of_ne hqr] at hj
      exact ⟨job'', hj, fun _ => id⟩

lemma of_remembers (h : Remembers s s') : Retains s s' where
  next_le := h.next_le
  heap r job' hr hj := by
    obtain ⟨job, hj, hl⟩ := h.heap r job' hr hj
    refine ⟨job, hj, fun pid hp => ?_⟩
    obtain ⟨p, hp⟩ := Option.isSome_iff_exists.mp hp
    obtain ⟨p', hp', -⟩ := hl pid p hp
    exact Option.isSome_iff_exists.mpr ⟨p', hp'⟩

end Retains

lemma Job.lists_takeEvent {info : SigInfo} {pid : ℤ} (h : job.Lists pid) :
    (job.takeEvent info).2.Lists pid := by
  cases hg : getProcess job.processes info.siPid with
  | none => rwa [Job.takeEvent, hg]
  | some p =>
    rw [Job.Lists, takeEvent_processes hg, getProcess_recordInfo]
    split_ifs
    · rw [Option.isSome_map]
      exact h
    · exact h

namespace Housed

lemma put (h : Housed s out) (hr : s.heap r = some job) : Housed (s.put r job') out := by
  intro q hq
  apply h
  by_cases hqr : q = r
  · rw [hqr, hr]
    rintro ⟨⟩
  · rwa [State.put_of_ne hqr] at hq

lemma free (h : Housed s (some r)) : Housed (s.free r) none := by
  intro q hq
  have hqr : q ≠ r := by
    rintro rfl
    exact hq State.free_self
  rw [State.free_of_ne hqr] at hq
  exact Or.inr ((h q hq).resolve_left fun he => hqr (Option.some.inj he).symm)

lemma setFront (h : Housed s out) : Housed (s.setFront v) out := by
  intro q hq
  refine (h q hq).imp_right ?_
  rintro ⟨i, hi, hslot⟩
  refine ⟨i, hi, ?_⟩
  rwa [State.setFront_table, Function.update_of_ne (Nat.ne_of_gt hi)]

lemma alloc (h : Housed s none) : Housed s.alloc (some s.next) := by
  intro q hq
  by_cases hqn : q = s.next
  · exact Or.inl (congrArg some hqn.symm)
  · rw [State.alloc_of_ne hqn] at hq
    exact Or.inr ((h q hq).resolve_left nofun)

lemma slot_of_ne (h : Housed s out) {q : Ref} (hslot : s.jobs.table i = some r) (hqr : q ≠ r)
    (hq : s.heap q ≠ none) :
    out = some q ∨ ∃ k, 1 ≤ k ∧ (s.unlist i).jobs.table k = some q := by
  refine (h q hq).imp_right ?_
  rintro ⟨k, hk, hkq⟩
  refine ⟨k, hk, ?_⟩
  have hki : k ≠ i := by
    rintro rfl
    rw [hslot] at hkq
    exact hqr (Option.some.inj hkq).symm
  rwa [State.unlist_table, Function.update_of_ne hki]

lemma unlist (h : Housed s none) (hslot : s.jobs.table i = some r) :
    Housed (s.unlist i) (some r) := by
  intro q hq
  by_cases hqr : q = r
  · exact Or.inl (congrArg some hqr.symm)
  · exact Or.inr ((h.slot_of_ne hslot hqr hq).resolve_left nofun)

lemma drop (h : Housed s out) (hr : s.heap r = some job) (hslot : s.jobs.table job'.id = some r) :
    Housed (s.drop r job') out := by
  intro q hq
  have hqr : q ≠ r := by
    rintro rfl
    exact hq State.free_self
  rw [State.drop, State.free_of_ne hqr] at hq
  exact (h.put hr).slot_of_ne hslot hqr hq

lemma list (h : Housed s (some r)) (ht : Table s none) :
    Housed (s.list r job) none := by
  intro q hq
  refine Or.inr ?_
  by_cases hqr : q = r
  · refine ⟨s.jobs.highestJobId + 1, Nat.le_add_left 1 _, ?_⟩
    rw [State.list_table, Function.update_self, hqr]
  · rw [State.list_of_ne hqr] at hq
    obtain ⟨i, hi, hslot⟩ := (h q hq).resolve_left fun he => hqr (Option.some.inj he).symm
    have hle := ht.counts.le_highest i (ht.occupied_of_slot hi hslot)
    refine ⟨i, hi, ?_⟩
    rwa [State.list_table, Function.update_of_ne (by omega)]

lemma bring (h : Housed (s.fetch job) (some r)) (hr : (s.fetch job).heap r = some job) :
    Housed (s.bring r job) (some r) :=
  (h.put hr).setFront

end Housed

end Memory

section Runs

variable {w : World} {s : State} {r : Ref} {job job' : Job} {out out' : Option Ref} {α β : Type}

lemma ends_lift_bind {m : ShellM α} {f : α → WorldM β} {Q : β → World → Prop}
    {E : Stop → World → Prop} :
    Ends (liftM m >>= f) Q E w ↔
      Ends m (fun a s => Ends (f a) Q E { w with shell := s }) (fun e s => E e { w with shell := s })
        w.shell :=
  ends_run_bind

lemma World.Sound.lift_bind {m : ShellM α} {f : α → WorldM β} {P : α → State → Prop}
    {E : Stop → State → Prop} {Q : β → World → Prop} (hs : w.Sound) (hm : Ends m P E w.shell)
    (hf : ∀ a s, P a s → Ends (f a) Q Noted { w with shell := s }) :
    Ends (liftM m >>= f) Q Noted w :=
  ends_lift_bind.mpr (hm.mono hf fun _ _ _ => hs)

lemma World.Sound.lift {m : ShellM α} {P : α → State → Prop} {E : Stop → State → Prop}
    {Q : α → World → Prop} (hs : w.Sound) (hm : Ends m P E w.shell)
    (hQ : ∀ a s, P a s → Q a { w with shell := s }) : Ends (liftM m : WorldM α) Q Noted w :=
  ends_run.mpr (hm.mono hQ fun _ _ _ => hs)

lemma World.reporting_children (w : World) (info : SigInfo) : (w.reporting info).children =
    if info.siCode.isTermination then Function.update w.children info.siPid none else w.children :=
  rfl

namespace Whole

lemma move (h : Whole w out) (ht : Tidy s none) (hh : Housed s out') (hr : Retains w.shell s) :
    Whole { w with shell := s } out' where
  tidy := ht
  housed := hh
  known := by
    refine ⟨fun pid r hp => (h.known.lt_next pid r hp).trans_le hr.next_le, ?_⟩
    intro pid r job' hp hj
    obtain ⟨job, hjob, hl⟩ := hr.heap r job' (h.known.lt_next pid r hp) hj
    exact hl pid (h.known.lists pid r job hp hjob)
  sound := h.sound

lemma reporting (h : Whole w out) (hf : ∀ r, out = some r → w.shell.jobs.table 0 = some r)
    (info : SigInfo) : Whole (w.reporting info) out where
  tidy := h.tidy
  housed := h.housed
  known := by
    have hsub : ∀ pid r, (w.reporting info).children pid = some r → w.children pid = some r := by
      intro pid r hp
      rw [World.reporting_children] at hp
      split_ifs at hp
      · by_cases hpid : pid = info.siPid
        · rw [hpid, Function.update_self] at hp
          cases hp
        · rwa [Function.update_of_ne hpid] at hp
      · exact hp
    exact ⟨fun pid r hp => h.known.lt_next pid r (hsub pid r hp),
      fun pid r job hp => h.known.lists pid r job (hsub pid r hp)⟩
  sound := by
    intro n hn
    rcases List.mem_cons.mp hn with rfl | hn
    · refine ⟨h.tidy, fun r job ho hr => ⟨?_, h.known.lists _ r job ho hr⟩⟩
      rcases h.housed r (by rw [hr]; rintro ⟨⟩) with hout | ⟨i, -, hi⟩
      · exact ⟨0, hf r hout⟩
      · exact ⟨i, hi⟩
    · exact h.sound n hn

lemma searching (h : Whole w out) : Whole w.searching out where
  tidy := h.tidy
  housed := h.housed
  known := ⟨h.known.lt_next, h.known.lists⟩
  sound := by
    intro n hn
    rcases List.mem_cons.mp hn with rfl | hn
    · exact h.tidy
    · exact h.sound n hn

end Whole

def Waits (s : State) (out : Option Ref) : Prop := ∀ r, out = some r → InFront s r

lemma Waits.kept {s' : State} (h : Waits s out) (hk : Kept s s') : Waits s' out :=
  fun r ho => (h r ho).kept hk

lemma ends_waitForAnyProcess_cases (s : State) (info : SigInfo) :
    Ends (waitForAnyProcess (some info))
      (fun o s' => (o = none ∧ s' = s) ∨ ∃ r job p k, o = some (r, p) ∧ s.jobs.table k = some r ∧
        s.heap r = some job ∧ s' = s.put r (job.takeEvent info).2)
      (fun _ _ => True) s := by
  simp only [waitForAnyProcess, ends_bind]
  refine (ends_findJobByPid info.siPid).mono ?_ fun _ _ _ => trivial
  rintro o s' ⟨rfl, hfound⟩
  cases o with
  | none => exact Or.inl ⟨rfl, rfl⟩
  | some r =>
    obtain ⟨k, job, hk, hr, hp⟩ := hfound r rfl
    obtain ⟨p, hp⟩ := Option.isSome_iff_exists.mp hp
    rw [ends_bind, ends_deref hr, ends_bind, ends_store, ends_pure]
    refine Or.inr ⟨r, job, { p with isRunning := false, info := info }, k, ?_, hk, hr, rfl⟩
    rw [Job.takeEvent, hp]
    rfl

lemma Job.lists_setJobState {process : Option Process} {pid : ℤ} (h : job.Lists pid) :
    (job.setJobState process).Lists pid := by
  obtain ⟨state, he, -⟩ := job.setJobState_spec process
  rw [he]
  exact h

lemma Job.lists_hasCompleted {pid : ℤ} (h : job.Lists pid) : job.hasCompleted.2.Lists pid := by
  rw [Job.hasCompleted]
  split_ifs <;> exact h

lemma ends_removeIfCompleted_housed (h : Tidy s (some r)) (hr : s.heap r = some job)
    (hslot : s.jobs.table job.id = some r) (hh : Housed s out) :
    Ends (removeIfCompleted (decide (job.id > 0)) r)
      (fun _ s' => (Tidy s' none ∧ Kept s s') ∧ Housed s' out ∧ Retains s s') (fun _ _ => True) s := by
  have hput : Retains s (s.put r job.hasCompleted.2) := .put hr fun _ => Job.lists_hasCompleted
  refine ((ends_removeIfCompleted h hr hslot).and
    (ends_removeIfCompleted_cases (E := fun _ _ => True) h hr hslot)).mono ?_ fun _ _ _ => trivial
  rintro - s' ⟨htidy, ⟨rfl, -⟩ | ⟨rfl, -⟩ | ⟨rfl, -⟩⟩
  · exact ⟨htidy, hh, .refl _⟩
  · exact ⟨htidy, hh.put hr, hput⟩
  · refine ⟨htidy, hh.drop hr ?_, hput.trans (.of_remembers ?_)⟩
    · rwa [(changes_hasCompleted job).1]
    · have hunlist : Remembers (s.put r job.hasCompleted.2)
          ((s.put r job.hasCompleted.2).unlist job.hasCompleted.2.id) := .of_heap rfl rfl
      exact hunlist.trans (.free _ r)

lemma ends_reapAll_whole (h : Whole w out) (hf : Waits w.shell out) (reports : List SigInfo) :
    Ends (World.reapAll reports) (fun _ w' => Whole w' out ∧ Kept w.shell w'.shell) Noted w := by
  induction reports generalizing w with
  | nil => exact ⟨h, Kept.refl _⟩
  | cons info reports ih =>
    rw [World.reapAll, ends_bind, ends_modify]
    have h₁ := h.reporting (fun r ho => (hf r ho).slot) info
    apply h₁.sound.lift_bind (ends_waitForAnyProcess_cases w.shell info)
    rintro o s (⟨rfl, rfl⟩ | ⟨r, job, process, k, rfl, hk, hr, rfl⟩)
    · exact ⟨h₁, Kept.refl _⟩
    · have htake := changes_takeEvent job info
      have hset := changes_setJobState (job.takeEvent info).2 (some process)
      have ht₁ := h.tidy.put_changes (Or.inl rfl) hr htake
      have ht₂ := ht₁.put_changes (Or.inr rfl) State.put_self hset
      have hid := hset.1.trans htake.1
      have hslot := h.tidy.seated hk hr
      refine ends_lift_bind.mpr ((ends_deref State.put_self).mpr ?_)
      refine ends_lift_bind.mpr ((ends_modifyJob State.put_self).mpr ?_)
      have hdone := ends_removeIfCompleted_housed ht₂ State.put_self (by rwa [hid])
        ((h.housed.put hr).put State.put_self)
      rw [hset.1] at hdone
      refine World.Sound.lift_bind h₁.sound hdone ?_
      rintro - s ⟨⟨ht, hkept⟩, hh, hretains⟩
      have hput : Retains w.shell ((w.shell.put r (job.takeEvent info).2).put r
          ((job.takeEvent info).2.setJobState (some process))) :=
        (Retains.put hr fun _ => Job.lists_takeEvent).trans
          (.put State.put_self fun _ => Job.lists_setJobState)
      have hkept₁ := ((Kept.put w.shell r _).trans (Kept.put _ r _)).trans hkept
      refine (ih (h₁.move ht hh (hput.trans hretains)) (hf.kept hkept₁)).imp ?_
      rintro ⟨⟩ w' ⟨hw, hkept₂⟩
      exact ⟨hw, hkept₁.trans hkept₂⟩

lemma ends_handlePendingSigchld_whole (h : Whole w out) (hf : Waits w.shell out)
    (rounds : List (List SigInfo)) :
    Ends (World.handlePendingSigchld rounds) (fun _ w' => Whole w' out ∧ Kept w.shell w'.shell)
      Noted w := by
  refine ends_forM (P := fun w' => Whole w' out ∧ Kept w.shell w'.shell) ?_ ⟨h, Kept.refl _⟩
  rintro reports - w₁ ⟨h₁, hkept⟩
  refine (ends_reapAll_whole h₁ (hf.kept hkept) reports).imp ?_
  rintro ⟨⟩ w₂ ⟨h₂, hkept₂⟩
  exact ⟨h₂, hkept.trans hkept₂⟩

structure Awaited (w : World) (r : Ref) : Prop where
  whole : Whole w (some r)
  front : InFront w.shell r
  ended : ∀ job, w.shell.heap r = some job → job.state = .done ∨ job.state = .stopped

lemma ends_waitAt_whole (h : Whole w (some r)) (hf : InFront w.shell r)
    (wakes : List (List (List SigInfo))) :
    Ends (World.waitAt 0 wakes) (fun _ w' => Awaited w' r) Noted w := by
  induction wakes generalizing w with
  | nil => exact h.sound
  | cons rounds wakes ih =>
    rw [World.waitAt, ends_bind]
    refine (ends_handlePendingSigchld_whole h (fun q ho => Option.some.inj ho ▸ hf) rounds).imp ?_
    rintro ⟨⟩ w₁ ⟨h₁, hkept⟩
    have hf₁ := hf.kept hkept
    obtain ⟨job, hr, hid⟩ := hf₁.exists_job h₁.tidy
    have hchange := changes_hasCompleted job
    have ht := h₁.tidy.put_changes (Or.inl rfl) hr hchange
    have h₂ := h₁.move (s := w₁.shell.put r job.hasCompleted.2)
      ⟨ht.settle State.put_self (Or.inr (hchange.1.trans hid)), ht.front⟩ (h₁.housed.put hr)
      (.put hr fun _ => Job.lists_hasCompleted)
    have hf₂ := hf₁.kept (Kept.put w₁.shell r job.hasCompleted.2)
    have hended : ∀ w' : World, w'.shell = w₁.shell.put r job.hasCompleted.2 → Whole w' (some r) →
        (job.hasCompleted.2.state = .done ∨ job.hasCompleted.2.state = .stopped) → Awaited w' r := by
      intro w' he hw hst
      refine ⟨hw, he ▸ hf₂, fun job' hj => ?_⟩
      rw [he, State.put_self, Option.some.injEq] at hj
      rwa [← hj]
    refine ends_lift_bind.mpr ((ends_slot (Nat.zero_le _)).mpr ?_)
    rw [hf₁.slot]
    refine ends_lift_bind.mpr ((ends_hasCompleted hr).mpr (ends_ite.mpr ⟨fun hc => ?_, fun _ => ?_⟩))
    · refine ends_lift_bind.mpr ((ends_deref State.put_self).mpr ?_)
      exact hended _ rfl h₂ (Or.inl (Job.hasCompleted_done hc))
    · refine ends_lift_bind.mpr ((ends_deref State.put_self).mpr (ends_ite.mpr ⟨fun hst => ?_, fun _ => ?_⟩))
      · refine ends_lift_bind.mpr ((ends_deref State.put_self).mpr ?_)
        exact hended _ rfl h₂ (Or.inr (beq_iff_eq.mp hst))
      · exact ih h₂ hf₂

lemma Retains.list (hr : s.heap r = some job) : Retains s (s.list r job) := by
  have hput : Remembers s (s.put r { job with id := s.jobs.highestJobId + 1 }) :=
    .put hr (.of_eq rfl)
  exact .of_remembers (hput.trans (.of_heap rfl rfl))

lemma Retains.setFront (s : State) (v : Option Ref) : Retains s (s.setFront v) :=
  .of_remembers (.of_heap rfl rfl)

lemma ends_handleJob_foreground_whole (h : Whole w (some r)) (hf : InFront w.shell r)
    (hr : w.shell.heap r = some job) (hstate : job.state = .foreground)
    (wakes : List (List (List SigInfo))) :
    Ends (World.handleJob r wakes) (fun _ w' => Whole w' none ∧ w'.shell.jobs.table 0 = none) Noted
      w := by
  have hid := h.tidy.front r job hf.slot hr
  rw [World.handleJob]
  refine ends_lift_bind.mpr ((ends_deref hr).mpr ?_)
  rw [hstate]
  simp only [World.waitForProcesses]
  rw [ends_bind]
  refine ends_lift_bind.mpr ((ends_deref hr).mpr ?_)
  rw [hid]
  refine (ends_waitAt_whole h hf wakes).imp ?_
  rintro - w₁ ⟨h₁, hf₁, hended⟩
  obtain ⟨job₁, hr₁, hid₁⟩ := hf₁.exists_job h₁.tidy
  refine ends_lift_bind.mpr ((ends_deref hr₁).mpr (ends_ite.mpr ⟨fun hst => ?_, fun hst => ?_⟩))
  · refine World.Sound.lift_bind h₁.sound
      (ends_addJobToTable_table h₁.tidy.toTable hr₁ hid₁ (Or.inr hst)) ?_
    rintro - s ⟨rfl, ht⟩
    refine World.Sound.lift h₁.sound
      (ends_endForeground State.list_self (State.list_front.trans hf₁.slot)) ?_
    rintro - s rfl
    rw [if_neg (by rw [hst]; rintro ⟨⟩)]
    refine ⟨h₁.move ht.clearFront (h₁.housed.list h₁.tidy.toTable).setFront ?_, State.setFront_front⟩
    exact (Retains.list hr₁).trans (.setFront _ none)
  · refine World.Sound.lift h₁.sound (ends_endForeground hr₁ hf₁.slot) ?_
    rintro - s rfl
    rw [if_pos ((hended job₁ hr₁).resolve_right hst)]
    have ht := h₁.tidy.toTable.free (h₁.tidy.not_listed hr₁ hid₁)
    refine ⟨h₁.move ht.clearFront h₁.housed.free.setFront ?_, State.setFront_front⟩
    exact (Retains.of_remembers (.free w₁.shell r)).trans (.setFront _ none)

lemma ends_handleJob_background_whole (h : Whole w (some r)) (hr : w.shell.heap r = some job)
    (hid : job.id = 0) (hstate : job.state = .background) (hfront : w.shell.jobs.table 0 ≠ some r)
    (wakes : List (List (List SigInfo))) :
    Ends (World.handleJob r wakes) (fun _ w' => Whole w' none) Noted w := by
  rw [World.handleJob]
  refine ends_lift_bind.mpr ((ends_deref hr).mpr ?_)
  rw [hstate]
  refine World.Sound.lift_bind h.sound
    (ends_addJobToTable_table h.tidy.toTable hr hid (Or.inl hstate)) ?_
  rintro - s ⟨rfl, ht⟩
  exact h.move (h.tidy.list ht hfront) (h.housed.list h.tidy.toTable) (.list hr)

def Cleared (r : Ref) (w : World) : Prop :=
  (Whole w (some r) ∧ InFront w.shell r) ∨ (Whole w none ∧ w.shell.jobs.table 0 = none)

lemma Whole.lift_removePlaceholder {f : Unit → WorldM β} {Q : β → World → Prop}
    (h : Whole w (some r)) (hf : InFront w.shell r)
    (hQ : ∀ w', Whole w' none → w'.shell.jobs.table 0 = none → Ends (f ()) Q Noted w') :
    Ends (liftM (removeForegroundJob true) >>= f) Q Noted w := by
  obtain ⟨job, hr, hid⟩ := hf.exists_job h.tidy
  refine ends_lift_bind.mpr ((ends_removeForegroundJob_true hf.slot hr).mpr ?_)
  refine hQ _ (h.move ?_ h.housed.free.setFront ?_) State.setFront_front
  · exact (h.tidy.toTable.free (h.tidy.not_listed hr hid)).clearFront
  · exact (Retains.of_remembers (.free w.shell r)).trans (.setFront _ none)

lemma Whole.lift_setForegroundJob {f : Unit → WorldM β} {Q : β → World → Prop}
    (h : Whole w out) (hr : w.shell.heap r = some job)
    (hslot : job.id = 0 ∨ w.shell.jobs.table job.id = some r)
    (hh : Housed (w.shell.fetch job) (some r))
    (hQ : ∀ w', Whole w' (some r) → InFront w'.shell r →
      w'.shell.heap r = some job.moveToForeground → Ends (f ()) Q Noted w') :
    Ends (liftM (setForegroundJob r) >>= f) Q Noted w := by
  refine World.Sound.lift_bind h.sound
    ((ends_setForegroundJob_bring (E := Logs) h.tidy hr hslot).and (moves_setForegroundJob r _)) ?_
  rintro - s ⟨rfl, hremembers⟩
  obtain ⟨ht, hf, hr'⟩ := h.tidy.bring hr hslot
  exact hQ _ (h.move ht (hh.bring (h.tidy.fetched hr hslot).heap) (.of_remembers hremembers)) hf hr'

lemma ends_runFg_whole (h : Whole w (some r)) (hf : InFront w.shell r) (operands : List Bytes)
    (wakes : List (List (List SigInfo))) :
    Ends (World.runFg operands wakes) (fun _ w' => Whole w' none ∧ w'.shell.jobs.table 0 = none)
      Noted w := by
  apply h.lift_removePlaceholder hf
  intro w₁ h₁ hfront
  refine ends_lift_bind.mpr (ends_isJobTableEmpty.mpr (ends_ite.mpr ⟨fun _ => ?_, fun _ => ?_⟩))
  · exact ⟨h₁, hfront⟩
  · rw [ends_bind, ends_modify]
    refine ends_lift_bind.mpr (ends_get.mpr ?_)
    refine World.Sound.lift_bind h₁.searching.sound (ends_getJobToMove h₁.tidy hfront operands _) ?_
    rintro o s ⟨rfl, hchosen⟩
    cases o with
    | none => exact ⟨h₁.searching, hfront⟩
    | some q =>
      obtain ⟨job, hq, hid, hslot⟩ := hchosen q rfl
      have hfetch : Housed (w₁.shell.fetch job) (some q) := by
        rw [State.fetch, if_neg (Nat.ne_of_gt hid)]
        exact h₁.housed.unlist hslot
      apply Whole.lift_setForegroundJob h₁.searching hq (Or.inr hslot) hfetch
      intro w₂ h₂ hf₂ hq₂
      exact ends_handleJob_foreground_whole h₂ hf₂ hq₂ rfl wakes

lemma ends_runBg_whole (h : Whole w (some r)) (hf : InFront w.shell r) (operands : List Bytes) :
    Ends (World.runBg operands) (fun _ w' => Whole w' none ∧ w'.shell.jobs.table 0 = none) Noted
      w := by
  apply h.lift_removePlaceholder hf
  intro w₁ h₁ hfront
  rw [ends_bind, ends_modify]
  have hreads : Reads getHighestStoppedJobId := reads_get.bind fun _ => reads_highestStoppedFrom _
  refine World.Sound.lift_bind h₁.searching.sound (hreads w₁.shell) ?_
  rintro elseValue s rfl
  refine World.Sound.lift_bind h₁.searching.sound (ends_getJobToMove h₁.tidy hfront operands _) ?_
  rintro o s ⟨rfl, hchosen⟩
  cases o with
  | none =>
    refine ends_lift_bind.mpr (ends_isJobTableEmpty.mpr (ends_ite.mpr ⟨fun _ => ?_, fun _ => ?_⟩))
    · exact ⟨h₁.searching, hfront⟩
    · exact ⟨h₁.searching, hfront⟩
  | some q =>
    obtain ⟨job, hq, -, -⟩ := hchosen q rfl
    refine ends_lift_bind.mpr ((ends_modifyJob hq).mpr ?_)
    refine ends_lift_bind.mpr ((ends_modifyJob State.put_self).mpr ?_)
    refine ⟨h₁.searching.move (h₁.tidy.sendBack hq) ((h₁.housed.put hq).put State.put_self) ?_, hfront⟩
    have hrunning : Remembers w₁.shell (w₁.shell.put q (job.setJobProcessState .running)) :=
      .put hq (job.remembered_setJobProcessState .running)
    exact .of_remembers (hrunning.trans (.put State.put_self (.of_eq rfl)))

lemma ends_runBuiltinCommand_whole (h : Whole w (some r)) (hf : InFront w.shell r) (name : Bytes)
    (operands : List Bytes) (lastStatus : ℤ) (a : Answers) :
    Ends (World.runBuiltinCommand name operands lastStatus a) (fun _ => Cleared r) Noted w := by
  have hsame : Cleared r w := Or.inl ⟨h, hf⟩
  have hreads : ∀ {m : ShellM ℤ}, Reads m → Ends (liftM m : WorldM ℤ) (fun _ => Cleared r) Noted w := by
    intro m hm
    refine World.Sound.lift h.sound (hm w.shell) ?_
    rintro a s rfl
    exact hsame
  rw [World.runBuiltinCommand]
  split_ifs
  · exact hreads (reads_runExit operands lastStatus)
  · exact hsame
  · exact hsame
  · exact hreads reads_runJobs
  · exact (ends_runFg_whole h hf operands a.wakes).imp fun _ _ => Or.inr
  · exact (ends_runBg_whole h hf operands).imp fun _ _ => Or.inr
  · exact hsame

lemma ends_runRedirected_whole (h : Whole w (some r)) (hf : InFront w.shell r) (name : Bytes)
    (operands : List Bytes) (lastStatus : ℤ) (a : Answers) :
    Ends (World.runRedirected name operands lastStatus a) (fun _ => Cleared r) Noted w := by
  have hsame : Cleared r w := Or.inl ⟨h, hf⟩
  rw [World.runRedirected]
  split_ifs
  · exact hsame
  · exact hsame
  · exact hsame
  · rw [ends_bind]
    refine (ends_runBuiltinCommand_whole h hf name operands lastStatus a).imp fun status w' hw => ?_
    exact hw
  · rw [ends_bind]
    refine (ends_runBuiltinCommand_whole h hf name operands lastStatus a).imp fun status w' hw => ?_
    exact hw

lemma Whole.lift_defaultJob {f : Ref → WorldM β} {Q : β → World → Prop} (h : Whole w none)
    (hQ : ∀ w', Whole w' (some w.shell.next) → w'.shell = w.shell.alloc →
      Ends (f w.shell.next) Q Noted w') :
    Ends (liftM defaultJob >>= f) Q Noted w := by
  refine ends_lift_bind.mpr (ends_defaultJob.mpr (hQ _ ?_ rfl))
  exact h.move h.tidy.alloc h.housed.alloc (.of_remembers (.alloc w.shell))

lemma ends_runSingleBuiltinCommand_whole (h : Whole w none) (command : Command) (lastStatus : ℤ)
    (a : Answers) :
    Ends (World.runSingleBuiltinCommand command lastStatus a) (fun _ w' => Whole w' none) Noted
      w := by
  rw [World.runSingleBuiltinCommand]
  cases command.args with
  | nil => exact h.sound
  | cons name operands =>
    refine ends_lift_bind.mpr (ends_isJobTableEmpty.mpr (ends_ite.mpr ⟨fun _ => h, fun _ => ?_⟩))
    apply h.lift_defaultJob
    intro w₁ h₁ he
    have hr₁ : w₁.shell.heap w.shell.next = some newJob := by
      rw [he, State.alloc_self]
    apply h₁.lift_setForegroundJob hr₁ (Or.inl rfl) h₁.housed
    rintro w₂ h₂ hf₂ -
    rw [ends_bind]
    refine (ends_runRedirected_whole h₂ hf₂ name operands lastStatus a).imp ?_
    intro status w₃ hcleared
    refine ends_lift_bind.mpr ((ends_slot (Nat.zero_le _)).mpr (ends_ite.mpr ⟨fun hs => ?_, fun hs => ?_⟩))
    · rcases hcleared with ⟨h₃, hf₃⟩ | ⟨-, hempty⟩
      · exact h₃.lift_removePlaceholder hf₃ fun w₄ h₄ _ => h₄
      · cases hempty.symm.trans hs
    · rcases hcleared with ⟨-, hf₃⟩ | ⟨h₃, -⟩
      · exact absurd hf₃.slot hs
      · exact h₃

lemma Job.lists_startProcess (job : Job) (pid : ℤ) : (job.startProcess pid).Lists pid := by
  rw [Job.Lists, getProcess, Job.startProcess, List.find?_isSome]
  exact ⟨{ defaultProcess with pid := pid, isRunning := true },
    List.mem_append_right _ (List.mem_singleton_self _), beq_self_eq_true pid⟩

lemma Whole.start (h : Whole w (some r)) (hr : w.shell.heap r = some job) (hid : job.id = 0)
    (pid : ℤ) (left : ℤ → Bool) :
    Whole { w.starting r pid left with shell := w.shell.put r (job.startProcess pid) } (some r) := by
  have hretains : Retains w.shell (w.shell.put r (job.startProcess pid)) :=
    .of_remembers (.put hr (job.remembered_startProcess pid))
  have hmove := h.move (h.tidy.startProcess hr hid pid) (h.housed.put hr) hretains
  refine ⟨hmove.tidy, hmove.housed, ⟨?_, ?_⟩, ?_⟩
  · intro pid' q hp
    have hp : Function.update w.children pid (some r) pid' = some q := hp
    by_cases hpid : pid' = pid
    · rw [hpid, Function.update_self, Option.some.injEq] at hp
      rw [← hp]
      exact h.tidy.lt_next hr
    · rw [Function.update_of_ne hpid] at hp
      exact h.known.lt_next pid' q hp
  · intro pid' q job' hp hj
    have hp : Function.update w.children pid (some r) pid' = some q := hp
    by_cases hpid : pid' = pid
    · rw [hpid, Function.update_self, Option.some.injEq] at hp
      rw [← hp, State.put_self, Option.some.injEq] at hj
      rw [hpid, ← hj]
      exact job.lists_startProcess pid
    · rw [Function.update_of_ne hpid] at hp
      exact hmove.known.lists pid' q job' hp hj
  · intro n hn
    rcases List.mem_cons.mp hn with rfl | hn
    · trivial
    · exact h.sound n hn

lemma World.inGroup_reapGroup {left : ℤ → Bool} {pgid pid : ℤ} {q : Ref}
    (h : (w.reapGroup left pgid).children pid = some q) :
    w.children pid = some q ∧ w.inGroup left pgid pid = false := by
  have h : (if w.inGroup left pgid pid then none else w.children pid) = some q := h
  split_ifs at h with hgroup
  exact ⟨h, Bool.eq_false_of_not_eq_true hgroup⟩

lemma Whole.endGroup (h : Whole w out) (told : Told) (pgid : ℤ) :
    Ends (World.endGroup told pgid) (fun _ w' => Whole w' out ∧ w'.shell = w.shell) Noted w := by
  rw [World.endGroup]
  refine ends_ite.mpr ⟨fun _ => ends_ite.mpr ⟨fun _ => ?_, fun _ => h.sound⟩, fun _ => ⟨h, rfl⟩⟩
  rw [ends_modify]
  refine ⟨{ h with known := ⟨fun pid q hc => ?_, fun pid q job hc => ?_⟩ }, rfl⟩
  · exact h.known.lt_next pid q (World.inGroup_reapGroup hc).1
  · exact h.known.lists pid q job (World.inGroup_reapGroup hc).1

structure Started (w : World) (r : Ref) (job : Job) (w' : World) : Prop where
  whole : Whole w' (some r)
  front : w'.shell.jobs.table 0 = w.shell.jobs.table 0
  job : ∃ job', w'.shell.heap r = some job' ∧ job'.id = 0 ∧ job'.state = job.state

lemma ends_startFrom_whole (h : Whole w (some r)) (hr : w.shell.heap r = some job)
    (hid : job.id = 0) (spawn : ℕ → Spawn) (k : ℕ) (commands : List Command) :
    Ends (World.startFrom r spawn k commands)
      (fun b w' => (b = true → Started w r job w') ∧ (b = false → Whole w' none)) Noted w := by
  induction commands generalizing w job k with
  | nil => exact ⟨fun _ => ⟨h, rfl, job, hr, hid, rfl⟩, nofun⟩
  | cons command commands ih =>
    rw [World.startFrom]
    split_ifs with hpipe
    · refine ends_lift_bind.mpr ((ends_deref hr).mpr ?_)
      rw [ends_bind]
      refine (h.endGroup (spawn k).told job.pgid).imp ?_
      rintro - w₁ ⟨h₁, hshell⟩
      rw [← hshell] at hr
      refine ends_lift_bind.mpr ((ends_freeJob hr).mpr ?_)
      refine ⟨nofun, fun _ => h₁.move (h₁.tidy.free hr hid) h₁.housed.free ?_⟩
      exact .of_remembers (.free w₁.shell r)
    · cases (spawn k).fork with
      | none => exact h.sound
      | some pid =>
        rw [ends_bind, ends_modify]
        refine ends_lift_bind.mpr ((ends_modifyJob hr).mpr ?_)
        refine (ih (h.start hr hid pid (spawn k).told.left) State.put_self hid (k + 1)).imp ?_
        rintro b w' ⟨htrue, hfalse⟩
        exact ⟨fun hb => ⟨(htrue hb).whole, (htrue hb).front, (htrue hb).job⟩, hfalse⟩

lemma ends_runPipeline_whole (h : Whole w none) (pipeline : Pipeline) (a : Answers) :
    Ends (World.runPipeline pipeline a) (fun _ w' => Whole w' none) Noted w := by
  rw [World.runPipeline]
  apply h.lift_defaultJob
  intro w₁ h₁ he
  have hr₁ : w₁.shell.heap w.shell.next = some newJob := by
    rw [he, State.alloc_self]
  have hunused : w₁.shell.jobs.table 0 ≠ some w.shell.next := by
    rw [he]
    exact (h.tidy.unused w.shell.next le_rfl).2 0
  cases pipeline.isInBackground with
  | true =>
    rw [if_pos rfl]
    refine ends_lift_bind.mpr ((ends_modifyJob hr₁).mpr ?_)
    have h₂ := h₁.move (h₁.tidy.putBackground hr₁ rfl) (h₁.housed.put hr₁) (.put hr₁ fun _ => id)
    rw [ends_bind]
    refine (ends_startFrom_whole h₂ State.put_self rfl a.spawn 0 pipeline.commands).imp ?_
    rintro b w₃ ⟨htrue, hfalse⟩
    cases b with
    | true =>
      obtain ⟨h₃, hfront, job, hr, hid, hst⟩ := htrue rfl
      have hne : w₃.shell.jobs.table 0 ≠ some w.shell.next := by
        rw [hfront]
        exact hunused
      exact ends_handleJob_background_whole h₃ hr hid hst hne a.wakes
    | false => exact hfalse rfl
  | false =>
    rw [if_neg Bool.false_ne_true]
    apply h₁.lift_setForegroundJob hr₁ (Or.inl rfl) h₁.housed
    intro w₂ h₂ hf₂ hr₂
    rw [ends_bind]
    refine (ends_startFrom_whole h₂ hr₂ rfl a.spawn 0 pipeline.commands).imp ?_
    rintro b w₃ ⟨htrue, hfalse⟩
    cases b with
    | true =>
      obtain ⟨h₃, hfront, job, hr, -, hst⟩ := htrue rfl
      have hf₃ : InFront w₃.shell w.shell.next := by
        refine ⟨hfront.trans hf₂.slot, ?_⟩
        rw [hr]
        rintro ⟨⟩
      exact (ends_handleJob_foreground_whole h₃ hf₃ hr hst a.wakes).imp fun _ _ hw => hw.1
    | false => exact hfalse rfl

lemma ends_interpret_whole (h : Whole w none) (pipeline : Pipeline) (lastStatus : ℤ) (a : Answers) :
    Ends (World.interpret pipeline lastStatus a) (fun _ w' => Whole w' none) Noted w := by
  rw [World.interpret]
  split
  · exact h
  · split_ifs
    · exact ends_runSingleBuiltinCommand_whole h _ lastStatus a
    · exact ends_runPipeline_whole h pipeline a
  · exact ends_runPipeline_whole h pipeline a

lemma ends_runInput_whole (h : Whole w none) (lastStatus : ℤ) (input : Input) :
    Ends (World.runInput lastStatus input) (fun _ w' => Whole w' none) Noted w := by
  cases input with
  | sigchld rounds =>
    rw [World.runInput, ends_bind]
    refine (ends_handlePendingSigchld_whole h nofun rounds).imp ?_
    rintro - w' ⟨h', -⟩
    exact h'
  | sigint => exact h
  | pipeline p a => exact ends_interpret_whole h p lastStatus a

lemma initialWorld_whole : Whole initialWorld none where
  tidy := initialState_tidy
  housed _ hq := absurd rfl hq
  known := by
    constructor
    · rintro _ _ ⟨⟩
    · rintro _ _ _ ⟨⟩
  sound := by
    rintro _ ⟨⟩

lemma ends_runShell_whole (inputs : List Input) :
    Ends (World.runShell inputs) (fun _ w' => Whole w' none) Noted initialWorld :=
  ends_foldlM (fun input _ status _ h => ends_runInput_whole h status input) initialWorld_whole

theorem notes_sound (inputs : List Input) : ∀ n ∈ notes inputs, n.Sound := by
  have hends := ends_runShell_whole inputs
  rw [notes]
  cases hrun : World.runShell inputs initialWorld with
  | ok status w => exact (hends.ok hrun).sound
  | error e w => exact hends.error hrun

end Runs

def Note.before : Note → Option State
  | .started _ _ _ => none
  | .reported _ _ before => some before
  | .searched before => some before

def Reached (inputs : List Input) (s : State) : Prop :=
  (∃ status, runShell inputs initialState = .ok status s) ∨ ∃ n ∈ notes inputs, n.before = some s

theorem Reached.tidy {inputs : List Input} {s : State} (h : Reached inputs s) : Tidy s none := by
  rcases h with ⟨status, hrun⟩ | ⟨n, hn, hs⟩
  · exact (ends_runShell inputs).ok hrun
  · have hsound := notes_sound inputs n hn
    cases n with
    | started pid holder leads => cases hs
    | reported info owner before =>
      rw [← Option.some.inj hs]
      exact hsound.1
    | searched before =>
      rw [← Option.some.inj hs]
      exact hsound

end SystemsLab.Shell
