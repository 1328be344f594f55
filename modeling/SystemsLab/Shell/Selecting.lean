import SystemsLab.Shell.Lookups
import SystemsLab.CLib.Numerals

namespace SystemsLab.Shell

open Effects Tables CLib

inductive Named : Bytes → Job → Prop
  | byId {t : Bytes} {job : Job} (h : Denotes t job.id) : Named (37 :: t) job
  | byPid {arg : Bytes} {job : Job} {z : ℤ} (hp : arg.head? ≠ some 37) (h : Denotes arg z)
    (hl : job.Lists z) : Named arg job

structure Numbered (s : State) : Prop where
  ids : ∀ i r job, s.jobs.table i = some r → s.heap r = some job → job.id < maxJobs
  pids : ∀ i r job pid, s.jobs.table i = some r → s.heap r = some job → job.Lists pid →
    toPid pid = pid

def IsNamed (s : State) (arg : Bytes) (r : Ref) : Prop :=
  ∃ i job, s.jobs.table i = some r ∧ s.heap r = some job ∧ Named arg job

def SelectsNamed (s : State) (arg : Bytes) (more : List Bytes) : Prop :=
  ∀ elseValue, ∃ o, getJobToMove (arg :: more) elseValue s = .ok o s ∧
    ∀ r, o = some r → IsNamed s arg r

def pidRead (z : ℤ) : ℤ := toPid (max (-2 ^ 63) (min z (2 ^ 63 - 1)))

variable {s : State} {arg t : Bytes} {more : List Bytes} {z : ℤ} {i : ℕ} {r : Ref} {job : Job}

lemma pidRead_of_fits (h : toPid z = z) : pidRead z = z := by
  have hle : -(2 : ℤ) ^ 31 ≤ z.bmod (2 ^ 32) := Int.le_bmod (by norm_num)
  have hlt : z.bmod (2 ^ 32) < (2 : ℤ) ^ 31 := Int.bmod_lt (by norm_num)
  rw [toPid] at h
  rw [h] at hle hlt
  rw [pidRead, min_eq_left (by omega), max_eq_right (by omega), toPid, h]

lemma isNamed_none (s : State) (arg : Bytes) : ∀ r, none = some r → IsNamed s arg r := by
  rintro r ⟨⟩

lemma getJobToMove_pid (hp : arg.head? ≠ some 37) (h : Denotes arg z) (elseValue : ℕ) :
    getJobToMove (arg :: more) elseValue = findJobByPid (pidRead z) := by
  obtain ⟨hvalue, hrest⟩ := strtoll_of_denotes h
  have hread : ¬ ((strtoll arg).rest ≠ [] ∨ (strtoll arg).rest = arg) := by
    rw [hrest]
    rintro (hne | he)
    · exact hne rfl
    · exact h.ne_nil he.symm
  simp only [getJobToMove, if_pos hp, if_neg hread]
  rw [hvalue, pidRead]

lemma getJobToMove_no_pid (hp : arg.head? ≠ some 37) (h : ∀ z, ¬ Denotes arg z) (elseValue : ℕ) :
    getJobToMove (arg :: more) elseValue s = .ok none s := by
  have hread : (strtoll arg).rest ≠ [] ∨ (strtoll arg).rest = arg := by
    by_contra hno
    rw [not_or, not_not] at hno
    obtain ⟨z, hz⟩ := denotes_of_strtoll hno.1 hno.2
    exact h z hz
  simp only [getJobToMove, if_pos hp, if_pos hread]
  rfl

lemma Tidy.findJobById_named (h : Tidy s none) (hz : Denotes t z)
    (hpos : (strtoll t).value > 0) :
    ∃ o, findJobById (strtoll t).value.toNat s = .ok o s ∧
      ∀ r, o = some r → IsNamed s (37 :: t) r := by
  have hvalue := (strtoll_of_denotes hz).1
  rw [findJobById]
  split_ifs with hid
  · exact ⟨none, rfl, isNamed_none s _⟩
  · rw [slot, if_pos (by omega)]
    refine ⟨s.jobs.table (strtoll t).value.toNat, rfl, fun r hslot => ?_⟩
    obtain ⟨job, hr, he, -⟩ := h.listed _ r (by omega) hslot
    have hz' : (job.id : ℤ) = z := by
      have hmax : maxJobs = 8192 := rfl
      omega
    exact ⟨_, job, hslot, hr, .byId (hz' ▸ hz)⟩

lemma getJobToMove_id (t : Bytes) (more : List Bytes) (elseValue : ℕ) :
    getJobToMove ((37 :: t) :: more) elseValue =
      if (strtoll t).rest ≠ [] ∨ (strtoll t).rest = t then return none
      else if (strtoll t).value > 0 then findJobById (strtoll t).value.toNat
      else return none := rfl

lemma Tidy.selects_id (h : Tidy s none) (t : Bytes) (more : List Bytes) :
    SelectsNamed s (37 :: t) more := by
  intro elseValue
  rw [getJobToMove_id]
  by_cases hread : (strtoll t).rest ≠ [] ∨ (strtoll t).rest = t
  · rw [if_pos hread]
    exact ⟨none, rfl, isNamed_none s _⟩
  · rw [if_neg hread]
    by_cases hpos : (strtoll t).value > 0
    · rw [if_pos hpos]
      rw [not_or, not_not] at hread
      obtain ⟨z, hz⟩ := denotes_of_strtoll hread.1 hread.2
      exact h.findJobById_named hz hpos
    · rw [if_neg hpos]
      exact ⟨none, rfl, isNamed_none s _⟩

lemma Tidy.listedAt_lt (h : Tidy s none) (hn : Numbered s) (hi : ListedAt s z i) : i < maxJobs := by
  obtain ⟨r, job, hslot, hr, -⟩ := hi
  have hid := hn.ids i r job hslot hr
  rwa [h.slot_unique hr hslot (h.seated hslot hr)]

lemma Tidy.selects_pid (h : Tidy s none) (hp : arg.head? ≠ some 37) (hz : Denotes arg z)
    (hf : FrontAlive s) (hread : pidRead z = z ∨ ∀ i, ¬ ListedAt s (pidRead z) i) :
    SelectsNamed s arg more := by
  intro elseValue
  rw [getJobToMove_pid hp hz]
  obtain ⟨o, hrun, hfinds⟩ := h.findJobByPid hf (pidRead z)
  refine ⟨o, hrun, fun r ho => ?_⟩
  subst ho
  cases hfinds with
  | first k r job hk hslot hr hl _ =>
    rcases hread with he | hno
    · rw [he] at hl
      exact ⟨k, job, hslot, hr, .byPid hp hz hl⟩
    · exact absurd ⟨r, job, hslot, hr, hl⟩ (hno k)

lemma Named.fits (h : Named arg job) (hn : Numbered s) (hi : s.jobs.table i = some r)
    (hr : s.heap r = some job) (hp : arg.head? ≠ some 37) (hz : Denotes arg z) : toPid z = z := by
  cases h with
  | byId _ => exact absurd rfl hp
  | byPid _ hz' hl =>
    rw [hz.unique hz']
    exact hn.pids i r job _ hi hr hl

lemma SelectsNamed.pid (h : SelectsNamed s arg more) (ht : Tidy s none) (hn : Numbered s)
    (hp : arg.head? ≠ some 37) (hz : Denotes arg z) :
    FrontAlive s ∧ (pidRead z = z ∨ ∀ i, ¬ ListedAt s (pidRead z) i) := by
  obtain ⟨o, hrun, hnamed⟩ := h 0
  rw [getJobToMove_pid hp hz] at hrun
  have hf := frontAlive_of_found hrun
  refine ⟨hf, ?_⟩
  obtain ⟨o', hrun', hfinds⟩ := ht.findJobByPid hf (pidRead z)
  rw [hrun] at hrun'
  cases hrun'
  cases hfinds with
  | nothing hno => exact Or.inr fun i hi => hno i (Nat.zero_le i) (ht.listedAt_lt hn hi) hi
  | first k r job _ _ _ _ _ =>
    obtain ⟨i, job, hi, hr, hnamed⟩ := hnamed r rfl
    exact Or.inl (pidRead_of_fits (hnamed.fits hn hi hr hp hz))

lemma Alone.numbered {n : ℕ} (h : Alone s n) (hn : n + 1 < maxJobs) : Numbered s where
  ids i r job hi hr := by
    rw [(h.slot hi).2, h.job, Option.some.injEq] at hr
    rw [← hr]
    exact hn
  pids i r job pid hi hr hl := by
    rw [(h.slot hi).2, h.job, Option.some.injEq] at hr
    rw [← hr] at hl
    obtain ⟨p, hp, rfl⟩ := Job.lists_iff.mp hl
    have hpid : p.pid = n + 1 := by rw [List.mem_singleton.mp hp]
    rw [hpid]
    have hmax : maxJobs = 8192 := rfl
    exact Int.bmod_eq_of_le (by omega) (by omega)

theorem get_job_to_move_selects_iff (inputs : List Input) (s : State) (h : Reached inputs s)
    (hn : Numbered s) (arg : Bytes) (more : List Bytes) :
    SelectsNamed s arg more ↔
      (arg.head? ≠ some 37 → ∀ z, Denotes arg z →
        FrontAlive s ∧ (pidRead z = z ∨ ∀ i, ¬ ListedAt s (pidRead z) i)) := by
  constructor
  · intro hs hp z hz
    exact hs.pid h.tidy hn hp hz
  · intro hcond
    by_cases hp : arg.head? ≠ some 37
    · by_cases hz : ∃ z, Denotes arg z
      · obtain ⟨z, hz⟩ := hz
        obtain ⟨hf, hread⟩ := hcond hp z hz
        exact h.tidy.selects_pid hp hz hf hread
      · rw [not_exists] at hz
        exact fun elseValue => ⟨none, getJobToMove_no_pid hp hz elseValue, isNamed_none s arg⟩
    · obtain ⟨t, rfl⟩ : ∃ t, arg = 37 :: t := by
        cases arg with
        | nil => exact absurd (Option.some_ne_none 37).symm hp
        | cons c t =>
          rw [not_not, List.head?_cons, Option.some.injEq] at hp
          exact ⟨t, by rw [hp]⟩
      exact h.tidy.selects_id t more

theorem get_job_to_move_selects_sleeping : ∃ s, Reached (staggered 0) s ∧ Numbered s ∧
    SelectsNamed s (ascii "1") [] := by
  obtain ⟨status, s, hrun, h⟩ := ends_staggered_zero.exists_ok
  have hreached : Reached (staggered 0) s := Or.inl ⟨status, hrun⟩
  have hn : Numbered s := h.numbered (by decide)
  refine ⟨s, hreached, hn, (get_job_to_move_selects_iff (staggered 0) s hreached hn _ []).mpr ?_⟩
  intro _ z hz
  have hone : Denotes (ascii "1") 1 := .digits (digits_of_all (by decide) rfl)
  rw [hz.unique hone]
  refine ⟨fun q hq => ?_, Or.inl (by decide)⟩
  exact absurd (h.slot hq).1 (by decide)

def beyondPids : Bytes := ascii "4294967297"

lemma denotes_beyondPids : Denotes beyondPids 4294967297 := by
  have hdigits : Digits beyondPids := digits_of_all (by decide) rfl
  exact .digits hdigits

lemma lists_sleeping (id : ℕ) (pid : ℤ) : (sleeping id pid).Lists pid :=
  Job.lists_iff.mpr ⟨_, List.mem_cons_self, rfl⟩

/-- `2 ^ 32 + 1` selects the job with the pid 1. -/
theorem get_job_to_move_selects_other :
    ¬ ∀ (inputs : List Input) (s : State), Reached inputs s → Numbered s →
      ∀ (arg : Bytes) (more : List Bytes), SelectsNamed s arg more := by
  intro hclaim
  obtain ⟨status, s, hrun, h⟩ := ends_staggered_zero.exists_ok
  have hn : Numbered s := h.numbered (by decide)
  have hselects := hclaim (staggered 0) s (Or.inl ⟨status, hrun⟩) hn beyondPids []
  obtain ⟨-, he | hno⟩ := hselects.pid h.tidy hn (by decide) denotes_beyondPids
  · exact absurd he (by decide)
  · exact hno 1 ⟨0, sleeping 1 1, h.table_last, h.job, lists_sleeping 1 1⟩

end SystemsLab.Shell
