import SystemsLab.Shell.Lookups

namespace SystemsLab.Shell

open Effects CLib

variable {s : State} {k : ℕ} {q r : Ref} {job : Job} {info : SigInfo}

def RecordedFor (s : State) (info : SigInfo) (r : Ref) : Prop :=
  (∀ job, s.heap r = some job →
    ∃ p, waitForAnyProcess (some info) s = .ok (some (r, p)) (s.put r (job.takeEvent info).2)) ∧
  (s.heap r = none → waitForAnyProcess (some info) s = .ok none s)

def Foremost (s : State) (info : SigInfo) (r : Ref) : Prop :=
  ∀ i q job, s.jobs.table i = some q → s.heap q = some job → job.Lists info.siPid →
    q = r ∨ ∃ k, k < i ∧ s.jobs.table k = some r

lemma frontAlive_of_waited {o : Option (Ref × Process)} {s' : State}
    (h : waitForAnyProcess (some info) s = .ok o s') : FrontAlive s := by
  intro q hq hfreed
  have herror : waitForAnyProcess (some info) s = .error (.fault .freedPointer) s := by
    change EStateM.bind _ _ s = _
    rw [EStateM.bind, findJobByPid_freed hq hfreed]
  rw [herror] at h
  cases h

lemma recordedFor_iff_of_alive (ht : Tidy s none) (hids : ∀ i q, s.jobs.table i = some q → i < maxJobs)
    (hr : s.heap r = some job) (hslot : s.jobs.table k = some r) (hl : job.Lists info.siPid) :
    RecordedFor s info r ↔ FrontAlive s ∧ Foremost s info r := by
  have hlisted : ListedAt s info.siPid k := ⟨r, job, hslot, hr, hl⟩
  constructor
  · rintro ⟨hrecorded, -⟩
    obtain ⟨p, hwait⟩ := hrecorded job hr
    have hfront := frontAlive_of_waited hwait
    refine ⟨hfront, fun i q job' hq hj hlq => ?_⟩
    obtain ⟨o, hrun, hfinds⟩ := ht.findJobByPid hfront info.siPid
    cases hfinds with
    | nothing hnone => exact absurd hlisted (hnone k (Nat.zero_le k) (hids k r hslot))
    | first k₁ r₁ job₁ _ hslot₁ hr₁ hl₁ hfirst =>
      obtain ⟨p₁, hwait₁⟩ := waitForAnyProcess_some hrun hr₁ hl₁
      rw [hwait] at hwait₁
      injection hwait₁ with ho _
      have hrr : r = r₁ := congrArg Prod.fst (Option.some.inj ho)
      subst hrr
      by_cases hqr : q = r
      · exact Or.inl hqr
      · refine Or.inr ⟨k₁, ?_, hslot₁⟩
        by_contra hle
        rcases Nat.lt_or_eq_of_le (Nat.le_of_not_lt hle) with hlt | rfl
        · exact hfirst i (Nat.zero_le i) hlt ⟨q, job', hq, hj, hlq⟩
        · rw [hq, Option.some.injEq] at hslot₁
          exact hqr hslot₁
  · rintro ⟨hfront, hforemost⟩
    refine ⟨fun job' hr' => ?_, fun hfreed => ?_⟩
    · obtain ⟨o, hrun, hfinds⟩ := ht.findJobByPid hfront info.siPid
      have hfound : o = some r := by
        cases hfinds with
        | nothing hnone => exact absurd hlisted (hnone k (Nat.zero_le k) (hids k r hslot))
        | first k₁ r₁ job₁ _ hslot₁ hr₁ hl₁ hfirst =>
          rcases hforemost k₁ r₁ job₁ hslot₁ hr₁ hl₁ with rfl | ⟨j, hj, hjr⟩
          · rfl
          · exact absurd ⟨r, job, hjr, hr, hl⟩ (hfirst j (Nat.zero_le j) hj)
      rw [hfound] at hrun
      rw [hr, Option.some.injEq] at hr'
      subst hr'
      exact waitForAnyProcess_some hrun hr hl
    · rw [hr] at hfreed
      cases hfreed

lemma recordedFor_iff_of_freed (ht : Tidy s none)
    (hids : ∀ i q, s.jobs.table i = some q → i < maxJobs) (hr : s.heap r = none) :
    RecordedFor s info r ↔ FrontAlive s ∧ Foremost s info r := by
  constructor
  · rintro ⟨-, hrecorded⟩
    have hwait := hrecorded hr
    have hfront := frontAlive_of_waited hwait
    refine ⟨hfront, fun i q job hq hj hl => ?_⟩
    obtain ⟨o, hrun, hfinds⟩ := ht.findJobByPid hfront info.siPid
    cases hfinds with
    | nothing hnone => exact absurd ⟨q, job, hq, hj, hl⟩ (hnone i (Nat.zero_le i) (hids i q hq))
    | first k₁ r₁ job₁ _ _ hr₁ hl₁ _ =>
      obtain ⟨p₁, hwait₁⟩ := waitForAnyProcess_some hrun hr₁ hl₁
      rw [hwait] at hwait₁
      injection hwait₁ with ho _
      cases ho
  · rintro ⟨hfront, hforemost⟩
    refine ⟨fun job hr' => ?_, fun _ => ?_⟩
    · rw [hr] at hr'
      cases hr'
    · obtain ⟨o, hrun, hfinds⟩ := ht.findJobByPid hfront info.siPid
      have hnever : ∀ k, s.jobs.table k ≠ some r := by
        intro k hk
        obtain ⟨job, hjob⟩ := ht.alive hfront hk
        rw [hr] at hjob
        cases hjob
      cases hfinds with
      | nothing _ => exact waitForAnyProcess_none hrun
      | first k₁ r₁ job₁ _ hslot₁ hr₁ hl₁ _ =>
        rcases hforemost k₁ r₁ job₁ hslot₁ hr₁ hl₁ with rfl | ⟨j, -, hjr⟩
        · exact absurd hslot₁ (hnever k₁)
        · exact absurd hjr (hnever j)

theorem reported_event_recorded_iff (inputs : List Input) (info : SigInfo) (r : Ref) (before : State)
    (h : Note.reported info (some r) before ∈ notes inputs)
    (hids : ∀ i q, before.jobs.table i = some q → i < maxJobs) :
    RecordedFor before info r ↔
      (∀ q, before.jobs.table 0 = some q → before.heap q ≠ none) ∧ Foremost before info r := by
  obtain ⟨ht, howner⟩ := notes_sound inputs _ h
  cases hr : before.heap r with
  | none => exact recordedFor_iff_of_freed ht hids hr
  | some job =>
    obtain ⟨⟨k, hslot⟩, hl⟩ := howner r job rfl hr
    exact recordedFor_iff_of_alive ht hids hr hslot hl

/-- A pipeline of two processes in the background, of which the second ends; the next job gets the
pid of this process, and ends. -/
def reused : List Input :=
  [.pipeline ⟨true, [⟨[ascii "sleep"], .other⟩, ⟨[ascii "sleep"], .other⟩]⟩ (startsWith 7 []),
    finish 8, start 8, finish 8]

instance : DecidablePred Note.Possible
  | .started _ holder leads => inferInstanceAs (Decidable (holder = none ∧ leads = false))
  | .reported _ owner _ => inferInstanceAs (Decidable (owner ≠ none))
  | .searched _ => inferInstanceAs (Decidable True)

def Note.misplaced : Note → Bool
  | .reported info (some r) before =>
    match waitForAnyProcess (some info) before with
    | .ok (some (q, _)) _ => q != r
    | _ => false
  | _ => false

def Note.IdsBelow (n : Note) : Prop :=
  ∀ s, n.before = some s → ∀ i q, s.jobs.table i = some q → i < maxJobs

lemma reused_possible : ∀ n ∈ notes reused, n.Possible := by decide +kernel

lemma reused_highest :
    (notes reused).all (fun n => n.before.all fun s => s.jobs.highestJobId ≤ 2) = true := by
  decide +kernel

lemma reused_misplaced : (notes reused).any Note.misplaced = true := by decide +kernel

lemma reused_idsBelow : ∀ n ∈ notes reused, n.IdsBelow := by
  intro n hn s hs i q hi
  have ht : Tidy s none := Reached.tidy (Or.inr ⟨n, hn, hs⟩)
  have hle := List.all_eq_true.mp reused_highest n hn
  rw [hs] at hle
  have hle : s.jobs.highestJobId ≤ 2 := of_decide_eq_true hle
  by_cases h0 : i = 0
  · rw [h0]
    decide
  · have hmax := ht.counts.le_highest i (ht.occupied_of_slot (Nat.one_le_iff_ne_zero.mpr h0) hi)
    have hmany : 2 < maxJobs := by decide
    omega

lemma exists_misplaced : ∃ info r before, Note.reported info (some r) before ∈ notes reused ∧
    (Note.reported info (some r) before).misplaced = true := by
  obtain ⟨n, hn, hmis⟩ := List.any_eq_true.mp reused_misplaced
  cases n with
  | started pid holder leads => cases hmis
  | searched before => cases hmis
  | reported info owner before =>
    cases owner with
    | none => cases hmis
    | some r => exact ⟨info, r, before, hn, hmis⟩

theorem reported_event_recorded_iff_reused :
    ∃ info r before, Note.reported info (some r) before ∈ notes reused ∧
      (RecordedFor before info r ↔
        (∀ q, before.jobs.table 0 = some q → before.heap q ≠ none) ∧ Foremost before info r) := by
  obtain ⟨info, r, before, hn, -⟩ := exists_misplaced
  exact ⟨info, r, before, hn,
    reported_event_recorded_iff reused info r before hn (reused_idsBelow _ hn before rfl)⟩

theorem reported_event_misplaced :
    ¬ ∀ inputs : List Input, (∀ n ∈ notes inputs, n.Possible) → (∀ n ∈ notes inputs, n.IdsBelow) →
      ∀ info r before, Note.reported info (some r) before ∈ notes inputs →
        RecordedFor before info r := by
  intro h
  obtain ⟨info, r, before, hn, hmis⟩ := exists_misplaced
  obtain ⟨halive, hfreed⟩ := h reused reused_possible reused_idsBelow info r before hn
  cases hr : before.heap r with
  | none =>
    rw [Note.misplaced, hfreed hr] at hmis
    cases hmis
  | some job =>
    obtain ⟨p, hwait⟩ := halive job hr
    rw [Note.misplaced, hwait] at hmis
    simp at hmis

end SystemsLab.Shell
