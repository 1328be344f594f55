import SystemsLab.Shell.Accounting
import SystemsLab.Shell.Attribution

namespace SystemsLab.Shell

open Effects Tables CLib

namespace World

/-- The last loop of `main` over the `n` slots from `i` on. -/
def cleanUpFrom (told : ℕ → Told) : ℕ → ℕ → WorldM Unit
  | _, 0 => return ()
  | i, n + 1 => do
    match ← slot i with
    | none => cleanUpFrom told (i + 1) n
    | some r => do
      let job ← deref r
      endGroup (told i) job.pgid
      freeJob (some r)
      setSlot i none
      cleanUpFrom told (i + 1) n

def main (inputs : List Input) (told : ℕ → Told) : WorldM ℤ := do
  let lastStatus ← runShell inputs
  cleanUpFrom told 0 ((← (get : ShellM State)).jobs.highestJobId + 1)
  return lastStatus

end World

/-- The child has left the process group of its job at no slot of the last loop. -/
def Stays (told : ℕ → Told) (pid : ℤ) : Prop := ∀ i, (told i).left pid = false

structure Sweeping (told : ℕ → Told) (w : World) (i high : ℕ) : Prop where
  accounted : w.Possible → ∀ pid r, Stays told pid → w.children pid = some r →
    ∃ job, w.shell.heap r = some job ∧ job.Expects pid
  below : ∀ k < i, w.shell.jobs.table k = none
  above : ∀ k, high < k → w.shell.jobs.table k = none
  listed : ∀ k r, w.shell.jobs.table k = some r → w.shell.heap r ≠ none
  distinct : ∀ j k r, w.shell.jobs.table j = some r → w.shell.jobs.table k = some r → j = k
  housed : ∀ r, w.shell.heap r ≠ none → ∃ k, w.shell.jobs.table k = some r

structure Vacated (told : ℕ → Told) (w : World) : Prop where
  childless : w.Possible → ∀ pid, Stays told pid → w.children pid = none
  heap : ∀ r, w.shell.heap r = none
  table : ∀ i, w.shell.jobs.table i = none

variable {w : World} {r : Ref} {job : Job} {i high : ℕ} {told : ℕ → Told}

def World.swept (w : World) (r : Ref) (i : ℕ) : World :=
  { w with
    shell := { w.shell with
      heap := Function.update w.shell.heap r none
      jobs := { w.shell.jobs with table := Function.update w.shell.jobs.table i none } } }

lemma World.swept_table_self : (w.swept r i).shell.jobs.table i = none := Function.update_self _ _ _

lemma World.swept_table_ne {k : ℕ} (h : k ≠ i) :
    (w.swept r i).shell.jobs.table k = w.shell.jobs.table k := Function.update_of_ne h _ _

lemma World.swept_heap_self : (w.swept r i).shell.heap r = none := Function.update_self _ _ _

lemma World.swept_heap_ne {q : Ref} (h : q ≠ r) : (w.swept r i).shell.heap q = w.shell.heap q :=
  Function.update_of_ne h _ _

lemma World.swept_table {k : ℕ} {q : Ref} (h : (w.swept r i).shell.jobs.table k = some q) :
    k ≠ i ∧ w.shell.jobs.table k = some q := by
  have hk : k ≠ i := by
    rintro rfl
    rw [World.swept_table_self] at h
    cases h
  exact ⟨hk, World.swept_table_ne hk ▸ h⟩

namespace Sweeping

lemma next_of_none (h : Sweeping told w i high) (hslot : w.shell.jobs.table i = none) :
    Sweeping told w (i + 1) high := by
  refine { h with below := fun k hk => ?_ }
  rcases Nat.lt_succ_iff_lt_or_eq.mp hk with hlt | rfl
  · exact h.below k hlt
  · exact hslot

lemma swept (h : Sweeping told w i high) (hslot : w.shell.jobs.table i = some r)
    (hr : w.Possible → ∀ pid, Stays told pid → w.children pid ≠ some r) :
    Sweeping told (w.swept r i) (i + 1) high where
  accounted hp pid q hstays hc := by
    obtain ⟨job, hq, he⟩ := h.accounted hp pid q hstays hc
    have hqr : q ≠ r := by
      rintro rfl
      exact hr hp pid hstays hc
    exact ⟨job, (World.swept_heap_ne hqr).trans hq, he⟩
  below k hk := by
    rcases Nat.lt_succ_iff_lt_or_eq.mp hk with hlt | rfl
    · rw [World.swept_table_ne (Nat.ne_of_lt hlt)]
      exact h.below k hlt
    · exact World.swept_table_self
  above k hk := by
    by_cases hki : k = i
    · rw [hki]
      exact World.swept_table_self
    · rw [World.swept_table_ne hki]
      exact h.above k hk
  listed k q hq := by
    obtain ⟨hki, hk⟩ := World.swept_table hq
    have hqr : q ≠ r := by
      rintro rfl
      exact hki (h.distinct k i q hk hslot)
    rw [World.swept_heap_ne hqr]
    exact h.listed k q hk
  distinct j k q hj hk :=
    h.distinct j k q (World.swept_table hj).2 (World.swept_table hk).2
  housed q hq := by
    have hqr : q ≠ r := by
      rintro rfl
      exact hq World.swept_heap_self
    rw [World.swept_heap_ne hqr] at hq
    obtain ⟨k, hk⟩ := h.housed q hq
    have hki : k ≠ i := by
      rintro rfl
      exact hqr (Option.some.inj (hk.symm.trans hslot))
    exact ⟨k, (World.swept_table_ne hki).trans hk⟩

lemma cleared (h : Sweeping told w (high + 1) high) : Vacated told w := by
  have htable : ∀ k, w.shell.jobs.table k = none := by
    intro k
    rcases Nat.lt_or_ge high k with hk | hk
    · exact h.above k hk
    · exact h.below k (Nat.lt_succ_of_le hk)
  have hheap : ∀ r, w.shell.heap r = none := by
    intro r
    by_contra hr
    obtain ⟨k, hk⟩ := h.housed r hr
    rw [htable k] at hk
    cases hk
  refine ⟨fun hp pid hstays => ?_, hheap, htable⟩
  cases hc : w.children pid with
  | none => rfl
  | some r =>
    obtain ⟨job, hr, -⟩ := h.accounted hp pid r hstays hc
    rw [hheap r] at hr
    cases hr

lemma endGroup (h : Sweeping told w i high) (hr : w.shell.heap r = some job) :
    Ends (World.endGroup (told i) job.pgid)
      (fun _ w' => Sweeping told w' i high ∧ w'.shell = w.shell ∧ w'.notes = w.notes ∧
        (w'.Possible → ∀ pid, Stays told pid → w'.children pid ≠ some r))
      (fun e _ => e = .asleep ∧ (told i).ends = false) w := by
  rw [World.endGroup]
  refine ends_ite.mpr ⟨fun hpos => ends_ite.mpr ⟨fun _ => ?_, fun hends => ?_⟩, fun hneg => ?_⟩
  · rw [ends_modify]
    refine ⟨{ h with accounted := fun hp pid q hstays hc => ?_ }, rfl, rfl, fun _ pid hstays hc => ?_⟩
    · exact h.accounted hp pid q hstays (World.inGroup_reapGroup hc).1
    · obtain ⟨hold, hgroup⟩ := World.inGroup_reapGroup hc
      simp only [World.inGroup, hold, hr, hstays i, beq_self_eq_true, Bool.not_false, Bool.and_true] at hgroup
      cases hgroup
  · exact ⟨rfl, Bool.eq_false_of_not_eq_true hends⟩
  · refine ⟨h, rfl, rfl, fun hp pid hstays hc => ?_⟩
    obtain ⟨job', hr', he⟩ := h.accounted hp pid r hstays hc
    rw [hr, Option.some.injEq] at hr'
    exact hneg (hr' ▸ he.grouped)

end Sweeping

lemma ends_cleanUpFrom (h : Sweeping told w i high) (hhigh : high ≤ maxJobs) {n : ℕ} (hn : i + n = high + 1) :
    Ends (World.cleanUpFrom told i n) (fun _ w' => Vacated told w' ∧ w'.notes = w.notes)
      (fun e _ => e = .asleep ∧ ∃ k, (told k).ends = false) w := by
  induction n generalizing w i with
  | zero =>
    rw [Nat.add_zero] at hn
    rw [hn] at h
    exact ⟨h.cleared, rfl⟩
  | succ n ih =>
    rw [World.cleanUpFrom]
    refine ends_lift_bind.mpr ((ends_slot (by omega)).mpr ?_)
    cases hslot : w.shell.jobs.table i with
    | none => exact ih (h.next_of_none hslot) (by omega)
    | some r =>
      obtain ⟨job, hr⟩ := Option.ne_none_iff_exists'.mp (h.listed i r hslot)
      refine ends_lift_bind.mpr ((ends_deref hr).mpr ?_)
      rw [ends_bind]
      refine (h.endGroup hr).mono ?_ fun _ _ he => ⟨he.1, i, he.2⟩
      rintro - w₁ ⟨h₁, hshell, hnotes, hchildren⟩
      have hr₁ : w₁.shell.heap r = some job := by rwa [hshell]
      have hslot₁ : w₁.shell.jobs.table i = some r := by rwa [hshell]
      refine ends_lift_bind.mpr ((ends_freeJob hr₁).mpr ?_)
      refine ends_lift_bind.mpr ((ends_setSlot (by omega)).mpr ?_)
      refine (ih (h₁.swept hslot₁ hchildren) (by omega)).imp ?_
      rintro - w₂ ⟨hleft, hnotes₂⟩
      exact ⟨hleft, hnotes₂.trans hnotes⟩

lemma sweeping_of_whole (h : Whole w none) (hk : w.Accounted) (hfront : w.shell.jobs.table 0 = none) :
    Sweeping told w 0 w.shell.jobs.highestJobId := by
  have htable := h.tidy.jobTable hfront
  have hpos : ∀ {k r}, w.shell.jobs.table k = some r → 1 ≤ k := by
    intro k r hk
    apply Nat.one_le_iff_ne_zero.mpr
    rintro rfl
    rw [hfront] at hk
    cases hk
  refine ⟨fun hp pid r _ => hk hp pid r, by rintro k ⟨⟩, fun k hlt => ?_, fun k r hslot => ?_, htable.distinct, fun r hr => ?_⟩
  · by_contra hslot
    obtain ⟨r, hr⟩ := Option.ne_none_iff_exists'.mp hslot
    exact absurd (htable.le_highest k (hpos hr) hslot) (Nat.not_le_of_lt hlt)
  · obtain ⟨job, hr, -⟩ := htable.listed k r (hpos hslot) hslot
    rw [hr]
    rintro ⟨⟩
  · obtain ⟨k, -, hk⟩ := (h.housed r hr).resolve_left (by rintro ⟨⟩)
    exact ⟨k, hk⟩

lemma ends_runInput_front (h : Whole w none) (hfront : w.shell.jobs.table 0 = none) (lastStatus : ℤ)
    {input : Input} (hpipes : input.PipesWork) :
    Ends (World.runInput lastStatus input) (fun _ w' => w'.shell.jobs.table 0 = none)
      (fun _ _ => True) w := by
  refine (World.erases_runInput lastStatus input w).mono (fun status w' hrun => ?_) fun _ _ _ => trivial
  exact ((ends_runInput h.tidy lastStatus input).ok hrun).2 hpipes hfront

lemma ends_runShell_sweeping (told : ℕ → Told) {inputs : List Input} (hpipes : ∀ input ∈ inputs, input.PipesWork)
    (hforks : ∀ input ∈ inputs, input.ForksWork) :
    Ends (World.runShell inputs)
      (fun _ w' => Sweeping told w' 0 w'.shell.jobs.highestJobId ∧ w'.shell.jobs.highestJobId ≤ maxJobs)
      Leaves initialWorld := by
  have hrun : Ends (World.runShell inputs)
      (fun _ w' => Whole w' none ∧ w'.Accounted ∧ w'.shell.jobs.table 0 = none) Leaves
      initialWorld := by
    refine ends_foldlM (P := fun w' => Whole w' none ∧ w'.Accounted ∧ w'.shell.jobs.table 0 = none) ?_
      ⟨initialWorld_whole, by rintro - pid r ⟨⟩, rfl⟩
    rintro input hmem status w ⟨h, hk, hfront⟩
    have hinput := ends_runInput_accounted h hk status (hpipes input hmem) (hforks input hmem)
    have hboth := hinput.and (ends_runInput_front h hfront status (hpipes input hmem))
    exact ((ends_runInput_whole h status input).and hboth).mono (fun _ _ hw => hw) fun _ _ he => he.2.1
  refine hrun.imp ?_
  rintro status w' ⟨h, hk, hfront⟩
  exact ⟨sweeping_of_whole h hk hfront, h.tidy.counts.highest_le⟩

lemma ends_main {inputs : List Input} (hpipes : ∀ input ∈ inputs, input.PipesWork)
    (hforks : ∀ input ∈ inputs, input.ForksWork) :
    Ends (World.main inputs told) (fun _ w => Vacated told w) Leaves initialWorld := by
  rw [World.main, ends_bind]
  refine (ends_runShell_sweeping told hpipes hforks).imp ?_
  rintro status w ⟨h, hhigh⟩
  refine ends_lift_bind.mpr (ends_get.mpr ?_)
  rw [ends_bind]
  refine (ends_cleanUpFrom h hhigh (Nat.zero_add _)).mono ?_ ?_
  · rintro - w' ⟨hleft, -⟩
    exact hleft
  · rintro e w' ⟨rfl, -⟩ status ⟨⟩

theorem shell_leaves_no_child (inputs : List Input) (told : ℕ → Told)
    (hpipes : ∀ input ∈ inputs, input.PipesWork) (hforks : ∀ input ∈ inputs, input.ForksWork) :
    (∀ status w, World.main inputs told initialWorld = .ok status w →
        (w.Possible → ∀ pid, Stays told pid → w.children pid = none) ∧
          (∀ r, w.shell.heap r = none) ∧ ∀ i, w.shell.jobs.table i = none) ∧
      (∀ status w, World.main inputs told initialWorld = .error (.exited status) w → w.Childless) ∧
      ∀ status w, World.runShell inputs initialWorld = .ok status w → (∀ i, (told i).ends = true) →
        ∃ w', World.main inputs told initialWorld = .ok status w' ∧ w'.notes = w.notes := by
  have hmain : Ends (World.main inputs told) (fun _ w => Vacated told w) Leaves initialWorld :=
    ends_main hpipes hforks
  refine ⟨fun status w hw => ?_, fun status w hw => hmain.error hw status rfl, fun status w hw hends => ?_⟩
  · have hleft := hmain.ok hw
    exact ⟨hleft.childless, hleft.heap, hleft.table⟩
  · obtain ⟨h, hhigh⟩ := (ends_runShell_sweeping told hpipes hforks).ok hw
    have hreturns : Ends (World.main inputs told)
        (fun status' w' => status' = status ∧ w'.notes = w.notes) (fun _ _ => False)
        initialWorld := by
      rw [World.main, ends_bind]
      refine ends_of_ok hw (ends_lift_bind.mpr (ends_get.mpr ?_))
      rw [ends_bind]
      refine (ends_cleanUpFrom h hhigh (Nat.zero_add _)).mono (fun _ _ hleft => ⟨rfl, hleft.2⟩) ?_
      rintro e w' ⟨-, k, hk⟩
      rw [hends k] at hk
      cases hk
    obtain ⟨status', w', hw', rfl, hnotes⟩ := hreturns.exists_ok
    exact ⟨w', hw', hnotes⟩

def twoLeft : List Input :=
  [.pipeline ⟨true, [⟨[ascii "sleep"], .other⟩]⟩ (startsWith 7 []),
   .pipeline ⟨false, [⟨[ascii "cat"], .other⟩]⟩ (startsWith 8 [[[⟨8, .stopped, 20⟩]]])]

instance (w : World) : Decidable w.Possible :=
  inferInstanceAs (Decidable (∀ n ∈ w.notes, n.Possible))

lemma twoLeft_returns : ∃ status w, World.runShell twoLeft initialWorld = .ok status w ∧ w.Possible := by
  apply Ends.exists_ok
  decide +kernel

theorem shell_leaves_no_child_two : ∃ status w,
    World.main twoLeft (fun _ => .obeyed) initialWorld = .ok status w ∧ ∀ pid, w.children pid = none := by
  have hpipes : ∀ input ∈ twoLeft, input.PipesWork := by
    simp [twoLeft, Input.PipesWork, Answers.PipesWork, startsWith]
  have hforks : ∀ input ∈ twoLeft, input.ForksWork := by
    have hstart : ∀ pid wakes, 0 < pid → (startsWith pid wakes).ForksWork :=
      fun pid wakes hpid k => ⟨pid + k, rfl, by omega⟩
    intro input hmem
    rcases List.mem_pair.mp hmem with rfl | rfl
    · exact hstart 7 _ (by decide)
    · exact hstart 8 _ (by decide)
  obtain ⟨hleft, -, hreturns⟩ := shell_leaves_no_child twoLeft (fun _ => .obeyed) hpipes hforks
  obtain ⟨status, w, hw, hpossible⟩ := twoLeft_returns
  obtain ⟨w', hw', hnotes⟩ := hreturns status w hw fun _ => rfl
  refine ⟨status, w', hw', fun pid => (hleft status w' hw').1 ?_ pid fun _ => rfl⟩
  rwa [World.Possible, hnotes]

end SystemsLab.Shell
