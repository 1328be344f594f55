import SystemsLab.Shell.Interpret
import SystemsLab.Tables.HighWater

namespace SystemsLab.Shell

open Effects Tables

namespace State

def put (s : State) (r : Ref) (job : Job) : State :=
  { s with heap := Function.update s.heap r (some job) }

def free (s : State) (r : Ref) : State := { s with heap := Function.update s.heap r none }

def alloc (s : State) : State := { s.put s.next newJob with next := s.next + 1 }

def setFront (s : State) (v : Option Ref) : State :=
  { s with jobs := { s.jobs with table := Function.update s.jobs.table 0 v } }

def unlist (s : State) (i : ℕ) : State :=
  { s with
    jobs :=
      { table := Function.update s.jobs.table i none
        numJobs := s.jobs.numJobs - 1
        highestJobId := lastUsed (Function.update s.jobs.table i none) s.jobs.highestJobId } }

def list (s : State) (r : Ref) (job : Job) : State :=
  { s with
    heap := Function.update s.heap r (some { job with id := s.jobs.highestJobId + 1 })
    jobs :=
      { table := Function.update s.jobs.table (s.jobs.highestJobId + 1) (some r)
        numJobs := s.jobs.numJobs + 1
        highestJobId := s.jobs.highestJobId + 1 }
    addCalls := ⟨s.jobs.highestJobId + 1, s.jobs⟩ :: s.addCalls }

variable {s : State} {q r : Ref} {job : Job} {v : Option Ref} {i : ℕ}

@[simp] lemma put_self : (s.put r job).heap r = some job := Function.update_self _ _ _

lemma put_of_ne (h : q ≠ r) : (s.put r job).heap q = s.heap q := Function.update_of_ne h _ _

@[simp] lemma put_jobs : (s.put r job).jobs = s.jobs := rfl

@[simp] lemma free_self : (s.free r).heap r = none := Function.update_self _ _ _

lemma free_of_ne (h : q ≠ r) : (s.free r).heap q = s.heap q := Function.update_of_ne h _ _

@[simp] lemma alloc_self : s.alloc.heap s.next = some newJob := Function.update_self _ _ _

lemma alloc_of_ne (h : q ≠ s.next) : s.alloc.heap q = s.heap q := Function.update_of_ne h _ _

@[simp] lemma alloc_jobs : s.alloc.jobs = s.jobs := rfl

@[simp] lemma setFront_heap : (s.setFront v).heap = s.heap := rfl

lemma setFront_table : (s.setFront v).jobs.table = Function.update s.jobs.table 0 v := rfl

@[simp] lemma setFront_front : (s.setFront v).jobs.table 0 = v := by
  rw [setFront_table, Function.update_self]

@[simp] lemma unlist_heap : (s.unlist i).heap = s.heap := rfl

lemma unlist_table : (s.unlist i).jobs.table = Function.update s.jobs.table i none := rfl

lemma unlist_front (hi : 1 ≤ i) : (s.unlist i).jobs.table 0 = s.jobs.table 0 := by
  rw [unlist_table, Function.update_of_ne (Nat.ne_of_lt hi)]

lemma list_self : (s.list r job).heap r = some { job with id := s.jobs.highestJobId + 1 } :=
  Function.update_self _ _ _

lemma list_of_ne (h : q ≠ r) : (s.list r job).heap q = s.heap q := Function.update_of_ne h _ _

lemma list_table : (s.list r job).jobs.table =
    Function.update s.jobs.table (s.jobs.highestJobId + 1) (some r) := rfl

@[simp] lemma list_front : (s.list r job).jobs.table 0 = s.jobs.table 0 := by
  rw [list_table, Function.update_of_ne (Nat.succ_ne_zero _).symm]

end State

variable {s : State} {r : Ref} {job : Job} {i : ℕ} {α : Type} {E : Stop → State → Prop}

section Primitives

variable {Q : Unit → State → Prop}

@[simp] lemma ends_fault {f : Fault} {Q : α → State → Prop} :
    Ends (fault f) Q E s ↔ E (.fault f) s := Iff.rfl

lemma ends_deref {Q : Job → State → Prop} (h : s.heap r = some job) :
    Ends (deref r) Q E s ↔ Q job s := by
  simp only [deref, ends_bind, ends_get, h, ends_pure]

@[simp] lemma ends_store : Ends (store r job) Q E s ↔ Q () (s.put r job) := Iff.rfl

lemma ends_modifyJob {f : Job → Job} (h : s.heap r = some job) :
    Ends (modifyJob r f) Q E s ↔ Q () (s.put r (f job)) := by
  rw [modifyJob, ends_bind, ends_deref h, ends_store]

lemma ends_slot {Q : Option Ref → State → Prop} (hi : i ≤ maxJobs) :
    Ends (slot i) Q E s ↔ Q (s.jobs.table i) s := by
  rw [slot, if_pos hi]
  exact Iff.rfl

lemma ends_setSlot {v : Option Ref} (hi : i ≤ maxJobs) :
    Ends (setSlot i v) Q E s ↔
      Q () { s with jobs := { s.jobs with table := Function.update s.jobs.table i v } } := by
  rw [setSlot, if_pos hi]
  exact Iff.rfl

lemma ends_setSlot_outside {v : Option Ref} (hi : ¬ i ≤ maxJobs) :
    Ends (setSlot i v) Q E s ↔ E (.fault .outOfTable) s := by
  rw [setSlot, if_neg hi]
  exact Iff.rfl

@[simp] lemma ends_setNumJobs {n : ℕ} :
    Ends (setNumJobs n) Q E s ↔ Q () { s with jobs := { s.jobs with numJobs := n } } := Iff.rfl

@[simp] lemma ends_setHighestJobId {n : ℕ} :
    Ends (setHighestJobId n) Q E s ↔ Q () { s with jobs := { s.jobs with highestJobId := n } } :=
  Iff.rfl

lemma ends_defaultJob {Q : Ref → State → Prop} :
    Ends defaultJob Q E s ↔ Q s.next s.alloc := Iff.rfl

lemma ends_freeJob (h : s.heap r = some job) :
    Ends (freeJob (some r)) Q E s ↔ Q () (s.free r) := by
  rw [freeJob, ends_bind, ends_deref h]
  exact Iff.rfl

lemma ends_hasCompleted {Q : Bool → State → Prop} (h : s.heap r = some job) :
    Ends (hasCompleted (some r)) Q E s ↔ Q job.hasCompleted.1 (s.put r job.hasCompleted.2) := by
  rw [hasCompleted, ends_bind, ends_deref h, ends_bind, ends_store, ends_pure]

lemma ends_removeForegroundJob_false :
    Ends (removeForegroundJob false) Q E s ↔ Q () (s.setFront none) := by
  rw [removeForegroundJob, if_neg Bool.false_ne_true]
  exact Iff.rfl

lemma ends_removeForegroundJob_true (h : s.jobs.table 0 = some r) (hr : s.heap r = some job) :
    Ends (removeForegroundJob true) Q E s ↔ Q () ((s.free r).setFront none) := by
  rw [removeForegroundJob, if_pos rfl, ends_bind, ends_slot (Nat.zero_le _), h, ends_bind,
    ends_freeJob hr]
  exact Iff.rfl

@[simp] lemma ends_isJobTableEmpty {Q : Bool → State → Prop} :
    Ends isJobTableEmpty Q E s ↔ Q (s.jobs.numJobs == 0) s := Iff.rfl

end Primitives

lemma reads_deref (r : Ref) : Reads (deref r) := by
  refine reads_get.bind fun s => ?_
  split
  · exact reads_pure
  · exact reads_throw

lemma reads_slot (i : ℕ) : Reads (slot i) :=
  Reads.ite (reads_get.bind fun _ => reads_pure) reads_throw

lemma reads_isJobTableEmpty : Reads isJobTableEmpty := reads_get.bind fun _ => reads_pure

def Listed (s : State) : Prop :=
  ∀ i r, 1 ≤ i → s.jobs.table i = some r →
    ∃ job, s.heap r = some job ∧ (job.state = .background ∨ job.state = .stopped)

lemma ends_lowerHighestJobId {h : ℕ} (hlisted : Listed s) (hh : s.jobs.highestJobId = h)
    (hle : h ≤ maxJobs) :
    Ends (lowerHighestJobId h)
      (fun _ s' => s' = { s with jobs := { s.jobs with highestJobId := lastUsed s.jobs.table h } })
      E s := by
  induction h generalizing s with
  | zero =>
    rw [lowerHighestJobId, ends_pure, lastUsed, ← hh]
  | succ h ih =>
    rw [lowerHighestJobId, ends_bind, ends_slot hle]
    have hlower := ih (s := { s with jobs := { s.jobs with highestJobId := h } }) hlisted rfl
      (Nat.le_of_succ_le hle)
    cases hslot : s.jobs.table (h + 1) with
    | none =>
      simp only [ends_bind, ends_setHighestJobId, lastUsed, hslot, Option.isSome_none,
        Bool.false_eq_true, if_false]
      exact hlower
    | some r =>
      obtain ⟨job, hr, hstate⟩ := hlisted (h + 1) r (Nat.le_add_left 1 h) hslot
      simp only [ends_bind, ends_deref hr, lastUsed, hslot, Option.isSome_some, if_true]
      rw [if_pos hstate, ends_pure, ← hh]

lemma ends_updateHighestJobId (hlisted : Listed s) (hle : s.jobs.highestJobId ≤ maxJobs) :
    Ends updateHighestJobId
      (fun _ s' => s' = { s with
        jobs := { s.jobs with highestJobId := lastUsed s.jobs.table s.jobs.highestJobId } }) E s :=
  ends_lowerHighestJobId hlisted rfl hle

lemma ends_addJobToTable (h : s.heap r = some job) :
    Ends (addJobToTable r) (fun _ s' => s.jobs.highestJobId < maxJobs ∧ s' = s.list r job)
      (fun _ s' => ¬ s.jobs.highestJobId < maxJobs ∧
        s'.addCalls = ⟨s.jobs.highestJobId + 1, s.jobs⟩ :: s.addCalls) s := by
  have hr : ({ s with
      jobs := { s.jobs with highestJobId := s.jobs.highestJobId + 1 }
      addCalls := ⟨s.jobs.highestJobId + 1, s.jobs⟩ :: s.addCalls } : State).heap r = some job := h
  simp only [addJobToTable, ends_bind, ends_get, ends_modify, ends_setHighestJobId]
  rw [ends_modifyJob hr]
  by_cases hlt : s.jobs.highestJobId < maxJobs
  · rw [ends_setSlot hlt]
    exact ⟨hlt, rfl⟩
  · rw [ends_setSlot_outside hlt]
    exact ⟨hlt, rfl⟩

lemma ends_removeJobFromTable (h : s.heap r = some job) (hid : 1 ≤ job.id) (hle : job.id ≤ maxJobs)
    (hlisted : Listed (s.unlist job.id)) (hhigh : s.jobs.highestJobId ≤ maxJobs) :
    Ends (removeJobFromTable r) (fun _ s' => s' = s.unlist job.id) E s := by
  simp only [removeJobFromTable, ends_bind, ends_deref h]
  rw [ends_setSlot hle, if_pos (show job.id > 0 from hid)]
  simp only [ends_bind, ends_get, ends_setNumJobs]
  exact ends_updateHighestJobId hlisted hhigh

lemma ends_bringToFront (h : s.heap r = some job) :
    Ends (do
        modifyJob r fun job => { job with state := .foreground, id := 0 }
        setSlot 0 (some r)
        modifyJob r (·.setJobProcessState .running))
      (fun _ s' => s' = (s.put r job.moveToForeground).setFront (some r)) E s := by
  rw [ends_bind, ends_modifyJob h, ends_bind, ends_setSlot (Nat.zero_le _),
    ends_modifyJob (Function.update_self _ _ _)]
  simp only [State.put, State.setFront, Function.update_idem]
  rfl

def State.fetch (s : State) (job : Job) : State := if job.id = 0 then s else s.unlist job.id

lemma ends_setForegroundJob (h : s.heap r = some job) (hle : job.id ≤ maxJobs)
    (hstate : job.id ≠ 0 → job.state ≠ .foreground) (hlisted : Listed (s.fetch job))
    (hhigh : s.jobs.highestJobId ≤ maxJobs) :
    Ends (setForegroundJob r)
      (fun _ s' => s' = ((s.fetch job).put r job.moveToForeground).setFront (some r)) E s := by
  rw [setForegroundJob, ends_bind, ends_deref h, ends_bind, ends_setSlot hle]
  by_cases hid : job.id = 0
  · rw [if_neg (fun hc => hc.2 hid), State.fetch, if_pos hid]
    refine Ends.imp (ends_bringToFront h) ?_
    rintro ⟨⟩ s' rfl
    simp only [State.put, State.setFront, hid, Function.update_idem]
  · rw [if_pos ⟨hstate hid, hid⟩]
    simp only [ends_bind, ends_get, ends_setNumJobs]
    rw [State.fetch, if_neg hid] at hlisted ⊢
    refine Ends.imp (ends_updateHighestJobId hlisted hhigh) ?_
    rintro ⟨⟩ s' rfl
    have htail := ends_bringToFront (s := s.unlist job.id) (E := E) h
    simp only [ends_bind] at htail
    exact htail

end SystemsLab.Shell
