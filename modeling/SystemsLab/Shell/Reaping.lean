import SystemsLab.Shell.Table

namespace SystemsLab.Shell

open Effects

structure Kept (s s' : State) : Prop where
  front : s'.jobs.table 0 = s.jobs.table 0
  alive : ∀ r, s.jobs.table 0 = some r → s.heap r ≠ none → s'.heap r ≠ none

def Logs (_ : Stop) (s : State) : Prop := s.Logged

variable {s s' s'' : State} {r : Ref} {job job' : Job} {finishing : Option Ref}

lemma Kept.refl (s : State) : Kept s s := ⟨rfl, fun _ _ h => h⟩

lemma Kept.trans (h : Kept s s') (h' : Kept s' s'') : Kept s s'' where
  front := h'.front.trans h.front
  alive r hr ha := h'.alive r (h.front.trans hr) (h.alive r hr ha)

lemma Kept.put (s : State) (r : Ref) (job : Job) : Kept s (s.put r job) where
  front := rfl
  alive q _ hq := by
    by_cases hqr : q = r
    · rw [hqr, State.put_self]
      exact nofun
    · rwa [State.put_of_ne hqr]

lemma Kept.remove {i : ℕ} (hi : 1 ≤ i) (hr : s.jobs.table 0 ≠ some r) :
    Kept s ((s.unlist i).free r) where
  front := State.unlist_front hi
  alive q hq ha := by
    have hne : q ≠ r := by
      rintro rfl
      exact hr hq
    rwa [State.free_of_ne hne, State.unlist_heap]

lemma ends_findJobFrom (pid : ℤ) (n i : ℕ) (hle : i + n ≤ maxJobs + 1) :
    Ends (findJobFrom pid n i)
      (fun o s' => s' = s ∧ ∀ r, o = some r → ∃ k job, s.jobs.table k = some r ∧
        s.heap r = some job ∧ (getProcess job.processes pid).isSome)
      (fun _ s' => s' = s) s := by
  induction n generalizing i with
  | zero => exact ⟨rfl, nofun⟩
  | succ n ih =>
    rw [findJobFrom, ends_bind, ends_slot (by omega)]
    cases hslot : s.jobs.table i with
    | none => exact ih (i + 1) (by omega)
    | some r =>
      cases hr : s.heap r with
      | none =>
        simp only [ends_bind, deref, ends_get, hr]
        exact rfl
      | some job =>
        rw [ends_bind, ends_deref hr]
        by_cases hp : (getProcess job.processes pid).isSome = true
        · rw [if_pos hp]
          refine ⟨rfl, ?_⟩
          rintro q ⟨⟩
          exact ⟨i, job, hslot, hr, hp⟩
        · rw [if_neg hp]
          exact ih (i + 1) (by omega)

lemma ends_findJobByPid (pid : ℤ) :
    Ends (findJobByPid pid)
      (fun o s' => s' = s ∧ ∀ r, o = some r → ∃ k job, s.jobs.table k = some r ∧
        s.heap r = some job ∧ (getProcess job.processes pid).isSome)
      (fun _ s' => s' = s) s :=
  ends_findJobFrom pid maxJobs 0 (by omega)

lemma ends_findJobFrom_found {pid : ℤ} {k i m : ℕ} {E : Stop → State → Prop} (hik : i ≤ k)
    (hk : k < i + m) (hmax : k ≤ maxJobs) (hbelow : ∀ j, j < k → s.jobs.table j = none)
    (hslot : s.jobs.table k = some r) (hr : s.heap r = some job)
    (hp : (getProcess job.processes pid).isSome = true) :
    Ends (findJobFrom pid m i) (fun o s' => o = some r ∧ s' = s) E s := by
  induction m generalizing i with
  | zero => omega
  | succ m ih =>
    rw [findJobFrom, ends_bind, ends_slot (by omega)]
    by_cases he : i = k
    · rw [he, hslot]
      simp only [ends_bind, ends_deref hr, hp, if_true, ends_pure, and_self]
    · rw [hbelow i (by omega)]
      exact ih (by omega) (by omega)

def Changes (job job' : Job) : Prop :=
  job'.id = job.id ∧ (job'.state = job.state ∨ job'.state = .stopped ∨ job'.state = .background ∨
    job'.state = .done)

lemma changes_setJobState (job : Job) (p : Option Process) : Changes job (job.setJobState p) := by
  obtain ⟨state, he, -, hstate⟩ := job.setJobState_spec p
  rw [he]
  exact ⟨rfl, hstate⟩

lemma changes_takeEvent (job : Job) (info : SigInfo) : Changes job (job.takeEvent info).2 := by
  rw [Job.takeEvent]
  split
  · exact ⟨rfl, Or.inl rfl⟩
  · exact changes_setJobState { job with processes := _ } _

lemma changes_hasCompleted (job : Job) : Changes job job.hasCompleted.2 := by
  rw [Job.hasCompleted]
  split_ifs
  · exact ⟨rfl, Or.inl rfl⟩
  · exact ⟨rfl, Or.inr (Or.inr (Or.inr rfl))⟩
  · exact ⟨rfl, Or.inl rfl⟩

lemma Job.hasCompleted_done (h : job.hasCompleted.1 = true) : job.hasCompleted.2.state = .done := by
  rw [Job.hasCompleted] at h ⊢
  split_ifs at h ⊢ with hd hf
  · exact hd
  · rfl

lemma Job.hasCompleted_not_done (h : job.hasCompleted.1 = false) :
    job.hasCompleted.2.state ≠ .done := by
  rw [Job.hasCompleted] at h ⊢
  split_ifs at h ⊢ with hd hf
  exact hd

lemma Tidy.put_changes (h : Tidy s finishing) (hfin : finishing = none ∨ finishing = some r)
    (hr : s.heap r = some job) (hc : Changes job job') : Tidy (s.put r job') (some r) where
  toTable := by
    refine h.toTable.put hr (fun i hi hslot => ?_) (fun q hq hf => ?_)
    · obtain ⟨job₁, hr₁, hid, hstate⟩ := h.listed i r hi hslot
      rw [hr] at hr₁
      cases hr₁
      refine ⟨hc.1.trans hid, ?_⟩
      rcases hc.2 with he | he | he | he
      · rw [he]
        rcases hstate with hst | hst | ⟨-, hst⟩
        · exact Or.inl hst
        · exact Or.inr (Or.inl hst)
        · exact Or.inr (Or.inr ⟨rfl, hst⟩)
      · exact Or.inr (Or.inl he)
      · exact Or.inl he
      · exact Or.inr (Or.inr ⟨rfl, he⟩)
    · rcases hfin with hn | hs
      · rw [hn] at hf
        cases hf
      · rw [hs, Option.some.injEq] at hf
        exact absurd hf.symm hq
  front q job₁ hq hjob := by
    by_cases hqr : q = r
    · subst hqr
      rw [State.put_self, Option.some.injEq] at hjob
      rw [← hjob, hc.1]
      exact h.front q job hq hr
    · rw [State.put_of_ne hqr] at hjob
      exact h.front q job₁ hq hjob

def Seated (s : State) (r : Ref) : Prop :=
  ∃ job, s.heap r = some job ∧ s.jobs.table job.id = some r

lemma Tidy.seated (h : Tidy s finishing) {k : ℕ} (hk : s.jobs.table k = some r)
    (hr : s.heap r = some job) : s.jobs.table job.id = some r := by
  by_cases hk0 : k = 0
  · subst hk0
    rwa [h.front r job hk hr]
  · obtain ⟨job', hr', hid, -⟩ := h.listed k r (Nat.one_le_iff_ne_zero.mpr hk0) hk
    rw [hr] at hr'
    cases hr'
    rwa [hid]

lemma ends_waitForAnyProcess (h : Tidy s none) (report : Option SigInfo) :
    Ends (waitForAnyProcess report)
      (fun o s' => Kept s s' ∧ (o = none → Tidy s' none) ∧
        ∀ r p, o = some (r, p) → Tidy s' (some r) ∧ Seated s' r) Logs s := by
  cases report with
  | none => exact ⟨Kept.refl s, fun _ => h, nofun⟩
  | some info =>
    simp only [waitForAnyProcess, ends_bind]
    refine (ends_findJobByPid info.siPid).mono ?_ ?_
    · rintro o s' ⟨rfl, hfound⟩
      cases o with
      | none => exact ⟨Kept.refl s', fun _ => h, nofun⟩
      | some r =>
        obtain ⟨k, job, hk, hr, hp⟩ := hfound r rfl
        rw [ends_bind, ends_deref hr, ends_bind, ends_store, ends_pure]
        refine ⟨Kept.put s' r _, ?_, ?_⟩
        · intro hnone
          rw [Job.takeEvent] at hnone
          obtain ⟨p, hp⟩ := Option.isSome_iff_exists.mp hp
          simp [hp] at hnone
        · intro q p he
          obtain ⟨p', -, he⟩ := Option.map_eq_some_iff.mp he
          cases he
          refine ⟨h.put_changes (Or.inl rfl) hr (changes_takeEvent job info), _, State.put_self, ?_⟩
          rw [(changes_takeEvent job info).1]
          exact h.seated hk hr
    · rintro e s' rfl
      exact h.logged

def State.drop (s : State) (r : Ref) (job : Job) : State := ((s.put r job).unlist job.id).free r

lemma ends_removeIfCompleted_cases {E : Stop → State → Prop} (h : Tidy s (some r))
    (hr : s.heap r = some job) (hslot : s.jobs.table job.id = some r) :
    Ends (removeIfCompleted (decide (job.id > 0)) r)
      (fun _ s' => (s' = s ∧ job.id = 0) ∨
        (s' = s.put r job.hasCompleted.2 ∧ job.hasCompleted.1 = false) ∨
        (s' = s.drop r job.hasCompleted.2 ∧ job.hasCompleted.1 = true ∧ 1 ≤ job.id)) E s := by
  rw [removeIfCompleted]
  by_cases hid : 0 < job.id
  · rw [if_pos (decide_eq_true hid), ends_bind, ends_hasCompleted hr]
    cases hc : job.hasCompleted.1 with
    | true =>
      have h₁ := h.put_changes (Or.inr rfl) hr (changes_hasCompleted job)
      have hid₁ : job.hasCompleted.2.id = job.id := (changes_hasCompleted job).1
      have hslot₁ : (s.put r job.hasCompleted.2).jobs.table job.hasCompleted.2.id = some r := by
        rw [hid₁]
        exact hslot
      have hpos : 1 ≤ job.hasCompleted.2.id := hid₁ ▸ hid
      rw [if_pos rfl, ends_bind]
      refine Ends.imp (ends_removeJobFromTable State.put_self hpos (h₁.slot_le hslot₁)
        (h₁.listed_unlist hpos hslot₁ (Or.inr rfl)) h₁.counts.highest_le) ?_
      rintro ⟨⟩ s' rfl
      refine (ends_freeJob (s := (s.put r job.hasCompleted.2).unlist _) State.put_self).mpr ?_
      exact Or.inr (Or.inr ⟨rfl, rfl, hid⟩)
    | false =>
      rw [if_neg Bool.false_ne_true, ends_pure]
      exact Or.inr (Or.inl ⟨rfl, rfl⟩)
  · rw [if_neg (fun hc => hid (of_decide_eq_true hc)), ends_pure]
    exact Or.inl ⟨rfl, Nat.eq_zero_of_not_pos hid⟩

lemma Tidy.drop (h : Tidy s (some r)) (hr : s.heap r = some job)
    (hslot : s.jobs.table job.id = some r) (hid : 1 ≤ job.id) (hd : job.state = .done) :
    Tidy (s.drop r job) none ∧ Kept s (s.drop r job) := by
  have hput : s.put r job = s := by
    rw [State.put, ← hr, Function.update_eq_self]
  have h₂ := h.unlist hid hslot (Or.inr rfl)
  have hfront : s.jobs.table 0 ≠ some r := by
    intro h0
    exact absurd (h.front r job h0 hr) (by omega)
  have hgone : ∀ i, 1 ≤ i → (s.unlist job.id).jobs.table i ≠ some r := by
    intro i hi hq
    obtain ⟨job₂, hr₂, hid₂, hst⟩ := h₂.listed i r hi hq
    rw [State.unlist_heap, hr] at hr₂
    cases hr₂
    rcases hst with hst | hst | ⟨hst, -⟩
    · rw [hd] at hst
      cases hst
    · rw [hd] at hst
      cases hst
    · cases hst
  rw [State.drop, hput]
  refine ⟨⟨h₂.free hgone, ?_⟩, Kept.remove hid hfront⟩
  intro q job₂ hq hjob
  have hq₀ : s.jobs.table 0 = some q := (State.unlist_front hid).symm.trans hq
  have hqr : q ≠ r := by
    rintro rfl
    exact hfront hq₀
  rw [State.free_of_ne hqr, State.unlist_heap] at hjob
  exact h.front q job₂ hq₀ hjob

lemma ends_removeIfCompleted (h : Tidy s (some r)) (hr : s.heap r = some job)
    (hslot : s.jobs.table job.id = some r) :
    Ends (removeIfCompleted (decide (job.id > 0)) r) (fun _ s' => Tidy s' none ∧ Kept s s') Logs
      s := by
  have hchange := changes_hasCompleted job
  have h₁ := h.put_changes (Or.inr rfl) hr hchange
  refine (ends_removeIfCompleted_cases h hr hslot).imp ?_
  rintro ⟨⟩ s' (⟨rfl, hid⟩ | ⟨rfl, hc⟩ | ⟨rfl, hc, hid⟩)
  · exact ⟨⟨h.settle hr (Or.inr hid), h.front⟩, Kept.refl _⟩
  · exact ⟨⟨h₁.settle State.put_self (Or.inl (Job.hasCompleted_not_done hc)), h₁.front⟩,
      Kept.put s r _⟩
  · have hslot₁ : (s.put r job.hasCompleted.2).jobs.table job.hasCompleted.2.id = some r := by
      rwa [hchange.1]
    have hdrop := h₁.drop State.put_self hslot₁ (by rwa [hchange.1]) (Job.hasCompleted_done hc)
    have he : (s.put r job.hasCompleted.2).drop r job.hasCompleted.2 =
        s.drop r job.hasCompleted.2 := by
      simp only [State.drop, State.put, Function.update_idem]
    rw [he] at hdrop
    exact ⟨hdrop.1, (Kept.put s r _).trans hdrop.2⟩

lemma ends_reapAll (h : Tidy s none) (reports : List SigInfo) :
    Ends (reapAll reports) (fun _ s' => Tidy s' none ∧ Kept s s') Logs s := by
  induction reports generalizing s with
  | nil => exact ⟨h, Kept.refl s⟩
  | cons info reports ih =>
    rw [reapAll, ends_bind]
    refine (ends_waitForAnyProcess h (some info)).imp ?_
    rintro o s₁ ⟨hkept, hnone, hsome⟩
    cases o with
    | none => exact ⟨hnone rfl, hkept⟩
    | some rp =>
      obtain ⟨r, process⟩ := rp
      obtain ⟨h₁, job, hr, hslot⟩ := hsome r process rfl
      have hc := changes_setJobState job (some process)
      have h₂ := h₁.put_changes (Or.inr rfl) hr hc
      have hend := ends_removeIfCompleted h₂ State.put_self (by rwa [hc.1])
      rw [hc.1] at hend
      rw [ends_bind, ends_deref hr, ends_bind, ends_modifyJob hr, ends_bind]
      refine hend.imp ?_
      rintro ⟨⟩ s₂ ⟨h₃, hkept₂⟩
      refine (ih h₃).imp ?_
      rintro ⟨⟩ s₃ ⟨h₄, hkept₃⟩
      exact ⟨h₄, ((hkept.trans (Kept.put s₁ r _)).trans hkept₂).trans hkept₃⟩

lemma ends_handlePendingSigchld (h : Tidy s none) (rounds : List (List SigInfo)) :
    Ends (handlePendingSigchld rounds) (fun _ s' => Tidy s' none ∧ Kept s s') Logs s := by
  refine ends_forM (P := fun s' => Tidy s' none ∧ Kept s s') ?_ ⟨h, Kept.refl s⟩
  rintro reports - s₁ ⟨h₁, hkept⟩
  refine (ends_reapAll h₁ reports).imp ?_
  rintro ⟨⟩ s₂ ⟨h₂, hkept₂⟩
  exact ⟨h₂, hkept.trans hkept₂⟩

structure InFront (s : State) (r : Ref) : Prop where
  slot : s.jobs.table 0 = some r
  alive : s.heap r ≠ none

lemma InFront.kept (h : InFront s r) (hk : Kept s s') : InFront s' r :=
  ⟨hk.front.trans h.slot, hk.alive r h.slot h.alive⟩

lemma InFront.exists_job (h : InFront s r) (ht : Tidy s finishing) :
    ∃ job, s.heap r = some job ∧ job.id = 0 := by
  obtain ⟨job, hr⟩ := Option.ne_none_iff_exists'.mp h.alive
  exact ⟨job, hr, ht.front r job h.slot hr⟩

lemma ends_waitAt (h : Tidy s none) (hf : InFront s r) (wakes : List (List (List SigInfo))) :
    Ends (waitAt 0 wakes) (fun _ s' => Tidy s' none ∧ InFront s' r) Logs s := by
  induction wakes generalizing s with
  | nil => exact h.logged
  | cons rounds wakes ih =>
    rw [waitAt, ends_bind]
    refine (ends_handlePendingSigchld h rounds).imp ?_
    rintro ⟨⟩ s₁ ⟨h₁, hkept⟩
    have hf₁ := hf.kept hkept
    obtain ⟨job, hr, hid⟩ := hf₁.exists_job h₁
    have hc := changes_hasCompleted job
    have hr₂ : (s₁.put r job.hasCompleted.2).heap r = some job.hasCompleted.2 :=
      State.put_self
    have h₂ := h₁.put_changes (Or.inl rfl) hr hc
    have h₃ : Tidy (s₁.put r job.hasCompleted.2) none :=
      ⟨h₂.settle hr₂ (Or.inr (hc.1.trans hid)), h₂.front⟩
    have hf₃ := hf₁.kept (Kept.put s₁ r job.hasCompleted.2)
    rw [ends_bind, ends_slot (Nat.zero_le _), hf₁.slot]
    simp only [ends_bind, ends_hasCompleted hr, ends_ite, ends_deref hr₂, ends_pure]
    exact ⟨fun _ => ⟨h₃, hf₃⟩, fun _ => ⟨fun _ => ⟨h₃, hf₃⟩, fun _ => ih h₃ hf₃⟩⟩

end SystemsLab.Shell
