import SystemsLab.Threads.Diamond
import Mathlib.Logic.Function.Basic
import Mathlib.Tactic.SplitIfs
import Mathlib.Data.List.Range

namespace SystemsLab.Threads.ForkJoin

variable {T R V L : Type}

/-- The threads: each has a region of the memory that it writes, and uses some regions, its own among
them. A thread that has returned makes no step. -/
structure Workers (T R V L : Type) where
  own : T → R
  uses : T → R → Prop
  start : T → L
  step : T → L → (R → V) → Option (L × V)
  frame : ∀ {t l m m'}, (∀ r, uses t r → m r = m' r) → step t l m = step t l m'

structure Assignment (R V : Type) where
  target : R
  uses : R → Prop
  value : (R → V) → V
  frame : ∀ {m m'}, (∀ r, uses r → m r = m' r) → value m = value m'

inductive Command (T R V : Type)
  | create (t : T)
  | join (t : T)
  | assign (a : Assignment R V)

/-- What the main thread has before it, the threads that have been created and not joined, and the
memory. -/
structure Moment (T R V L : Type) where
  commands : List (Command T R V)
  live : T → Option L
  memory : R → V

variable (W : Workers T R V L)

def Apart (t u : T) : Prop := W.own t ≠ W.own u ∧ ¬ W.uses u (W.own t) ∧ ¬ W.uses t (W.own u)

variable {W} in
lemma Apart.symm {t u : T} (h : Apart W t u) : Apart W u t := ⟨h.1.symm, h.2.2, h.2.1⟩

variable [DecidableEq T] [DecidableEq R]

/-- A step of the main thread, which is `none`, or of another one. -/
def act : Option T → Moment T R V L → Option (Moment T R V L)
  | none, s =>
    match s.commands with
    | [] => none
    | .create t :: commands =>
      some { s with commands := commands, live := Function.update s.live t (some (W.start t)) }
    | .join t :: commands =>
      match s.live t with
      | none => none
      | some l =>
        if (W.step t l s.memory).isSome then none
        else some { s with commands := commands, live := Function.update s.live t none }
    | .assign a :: commands =>
      some { s with commands := commands, memory := Function.update s.memory a.target (a.value s.memory) }
  | some t, s =>
    match s.live t with
    | none => none
    | some l =>
      match W.step t l s.memory with
      | none => none
      | some (l', v) =>
        some { s with
          live := Function.update s.live t (some l')
          memory := Function.update s.memory (W.own t) v }

/-- The commands are right for the threads that are alive: what is created is apart from them, what is
joined is one of them, and what is assigned or used is none of their business. -/
def Fine : List (Command T R V) → (T → Prop) → Prop
  | [], _ => True
  | .create t :: commands, live =>
    ¬ live t ∧ (∀ u, live u → Apart W t u) ∧ Fine commands fun u => u = t ∨ live u
  | .join t :: commands, live => live t ∧ Fine commands fun u => u ≠ t ∧ live u
  | .assign a :: commands, live =>
    (∀ u, live u → a.target ≠ W.own u ∧ ¬ W.uses u a.target ∧ ¬ a.uses (W.own u)) ∧ Fine commands live

structure Ready (s : Moment T R V L) : Prop where
  fine : Fine W s.commands fun t => s.live t ≠ none
  apart : ∀ t u, t ≠ u → s.live t ≠ none → s.live u ≠ none → Apart W t u

variable {W} {s s' s₁ s₂ : Moment T R V L} {t u : T} {l l' : L} {m : R → V} {v : V} {r : R}
  {a : Option T} {commands : List (Command T R V)} {live live' : T → Prop}

omit [DecidableEq T] in
lemma step_update (h : ¬ W.uses t r) : W.step t l (Function.update m r v) = W.step t l m :=
  W.frame fun r' hr' => Function.update_of_ne (fun heq : r' = r => h (heq ▸ hr')) v m

lemma value_update {a : Assignment R V} (h : ¬ a.uses r) : a.value (Function.update m r v) = a.value m :=
  a.frame fun r' hr' => Function.update_of_ne (fun heq : r' = r => h (heq ▸ hr')) v m

lemma act_worker (h : act W (some t) s = some s') :
    ∃ l l' v, s.live t = some l ∧ W.step t l s.memory = some (l', v) ∧
      s' = ⟨s.commands, Function.update s.live t (some l'), Function.update s.memory (W.own t) v⟩ := by
  rw [act] at h
  split at h
  · cases h
  · next l hl =>
    split at h
    · cases h
    · next l' v hstep => exact ⟨l, l', v, hl, hstep, (Option.some.inj h).symm⟩

lemma act_of_step (hl : s.live t = some l) (hstep : W.step t l s.memory = some (l', v)) :
    act W (some t) s =
      some ⟨s.commands, Function.update s.live t (some l'), Function.update s.memory (W.own t) v⟩ := by
  rw [act, hl]
  simp only [hstep]

lemma act_main (h : act W none s = some s') :
    (∃ t commands, s.commands = .create t :: commands ∧
        s' = ⟨commands, Function.update s.live t (some (W.start t)), s.memory⟩) ∨
      (∃ t commands l, s.commands = .join t :: commands ∧ s.live t = some l ∧
        W.step t l s.memory = none ∧ s' = ⟨commands, Function.update s.live t none, s.memory⟩) ∨
      ∃ a commands, s.commands = .assign a :: commands ∧
        s' = ⟨commands, s.live, Function.update s.memory a.target (a.value s.memory)⟩ := by
  rw [act] at h
  split at h
  · cases h
  · next t commands hcommands => exact Or.inl ⟨t, commands, hcommands, (Option.some.inj h).symm⟩
  · next t commands hcommands =>
    split at h
    · cases h
    · next l hl =>
      split_ifs at h with hstep
      have hreturned := Option.not_isSome_iff_eq_none.mp hstep
      exact Or.inr (Or.inl ⟨t, commands, l, hcommands, hl, hreturned, (Option.some.inj h).symm⟩)
  · next a commands hcommands =>
    exact Or.inr (Or.inr ⟨a, commands, hcommands, (Option.some.inj h).symm⟩)

omit [DecidableEq T] [DecidableEq R] in
lemma Fine.congr (h : Fine W commands live) (heq : ∀ t, live t ↔ live' t) : Fine W commands live' := by
  have hsame : live = live' := funext fun t => propext (heq t)
  rwa [← hsame]

lemma live_update (live : T → Option L) (t u : T) (l : L) :
    Function.update live t (some l) u ≠ none ↔ u = t ∨ live u ≠ none := by
  by_cases hu : u = t
  · simp [hu]
  · simp [hu]

lemma live_update_none (live : T → Option L) (t u : T) :
    Function.update live t none u ≠ none ↔ u ≠ t ∧ live u ≠ none := by
  by_cases hu : u = t
  · simp [hu]
  · simp [hu]

lemma Ready.act (h : Ready W s) (ha : act W a s = some s') : Ready W s' := by
  cases a with
  | some t =>
    obtain ⟨l, l', v, hl, -, rfl⟩ := act_worker ha
    have hsame : ∀ u, Function.update s.live t (some l') u ≠ none ↔ s.live u ≠ none := by
      intro u
      rw [live_update]
      exact or_iff_right_of_imp fun hu => by rw [hu, hl]; exact Option.some_ne_none l
    exact ⟨h.fine.congr fun u => (hsame u).symm,
      fun u u' hne hu hu' => h.apart u u' hne ((hsame u).mp hu) ((hsame u').mp hu')⟩
  | none =>
    have hfine := h.fine
    rcases act_main ha with ⟨t, commands, hcommands, rfl⟩ | ⟨t, commands, l, hcommands, -, -, rfl⟩ |
      ⟨a, commands, hcommands, rfl⟩
    · rw [hcommands] at hfine
      obtain ⟨-, hapart, hfine⟩ := hfine
      refine ⟨hfine.congr fun u => (live_update _ _ _ _).symm, fun u u' hne hu hu' => ?_⟩
      rcases (live_update _ _ _ _).mp hu with rfl | hlive
      · exact hapart u' (((live_update _ _ _ _).mp hu').resolve_left hne.symm)
      · rcases (live_update _ _ _ _).mp hu' with rfl | hlive'
        · exact (hapart u hlive).symm
        · exact h.apart u u' hne hlive hlive'
    · rw [hcommands] at hfine
      exact ⟨hfine.2.congr fun u => (live_update_none _ _ _).symm, fun u u' hne hu hu' =>
        h.apart u u' hne ((live_update_none _ _ _).mp hu).2 ((live_update_none _ _ _).mp hu').2⟩
    · rw [hcommands] at hfine
      exact ⟨hfine.2, h.apart⟩

lemma join_main (h : Ready W s) (h₁ : ForkJoin.act W none s = some s₁)
    (h₂ : ForkJoin.act W (some t) s = some s₂) :
    ∃ s₃, ForkJoin.act W (some t) s₁ = some s₃ ∧ ForkJoin.act W none s₂ = some s₃ := by
  obtain ⟨l, l', v, hl, hstep, rfl⟩ := act_worker h₂
  have hfine := h.fine
  have hlive : s.live t ≠ none := by
    rw [hl]
    exact Option.some_ne_none l
  rcases act_main h₁ with ⟨u, commands, hcommands, rfl⟩ | ⟨u, commands, k, hcommands, hk, hreturned, rfl⟩ |
    ⟨a, commands, hcommands, rfl⟩
  · rw [hcommands] at hfine
    have hne : t ≠ u := fun heq => hfine.1 (heq ▸ hlive)
    refine ⟨_, act_of_step (l := l) ?_ hstep, ?_⟩
    · exact (Function.update_of_ne hne _ _).trans hl
    · rw [ForkJoin.act]
      simp only [hcommands, Function.update_comm hne.symm]
  · rw [hcommands] at hfine
    have hne : t ≠ u := by
      rintro rfl
      rw [Option.some.inj (hl.symm.trans hk), hreturned] at hstep
      cases hstep
    have hstill : W.step u k (Function.update s.memory (W.own t) v) = none := by
      rw [step_update (h.apart t u hne hlive hfine.1).2.1, hreturned]
    refine ⟨_, act_of_step (l := l) ?_ hstep, ?_⟩
    · exact (Function.update_of_ne hne _ _).trans hl
    · rw [ForkJoin.act]
      simp only [hcommands, Function.update_of_ne hne.symm, hk, hstill, Option.isSome_none,
        Bool.false_eq_true, if_false, Function.update_comm hne]
  · rw [hcommands] at hfine
    obtain ⟨htarget, hunused, huses⟩ := hfine.1 t hlive
    have hstep' : W.step t l (Function.update s.memory a.target (a.value s.memory)) = some (l', v) := by
      rw [step_update hunused, hstep]
    refine ⟨_, act_of_step hl hstep', ?_⟩
    rw [ForkJoin.act]
    simp only [hcommands, value_update huses, Function.update_comm htarget]

lemma join_workers (h : Ready W s) (hne : t ≠ u) (h₁ : ForkJoin.act W (some t) s = some s₁)
    (h₂ : ForkJoin.act W (some u) s = some s₂) :
    ∃ s₃, ForkJoin.act W (some u) s₁ = some s₃ ∧ ForkJoin.act W (some t) s₂ = some s₃ := by
  obtain ⟨l, l', v, hl, hstep, rfl⟩ := act_worker h₁
  obtain ⟨k, k', w, hk, hstep', rfl⟩ := act_worker h₂
  obtain ⟨hown, ht, hu⟩ := h.apart t u hne (by rw [hl]; exact Option.some_ne_none l)
    (by rw [hk]; exact Option.some_ne_none k)
  have hstillu : Function.update s.live t (some l') u = some k := by rwa [Function.update_of_ne hne.symm]
  have hstillt : Function.update s.live u (some k') t = some l := by rwa [Function.update_of_ne hne]
  refine ⟨_, act_of_step hstillu ((step_update ht).trans hstep'), ?_⟩
  rw [act_of_step hstillt ((step_update hu).trans hstep)]
  simp only [Function.update_comm hne, Function.update_comm hown]

theorem diamond : Diamond (ForkJoin.act W) (Ready W) where
  keeps := Ready.act
  joins {a b s s₁ s₂} h hne h₁ h₂ := by
    match a, b with
    | none, none => exact absurd rfl hne
    | none, some t => exact join_main h h₁ h₂
    | some t, none =>
      obtain ⟨s₃, hmain, hworker⟩ := join_main h h₂ h₁
      exact ⟨s₃, hworker, hmain⟩
    | some t, some u => exact join_workers h (fun heq => hne (congrArg some heq)) h₁ h₂

section Sequential

variable (W)

inductive Alone (t : T) : L → (R → V) → (R → V) → Prop
  | returned {l : L} {m : R → V} (h : W.step t l m = none) : Alone t l m m
  | step {l l' : L} {m m' : R → V} {v : V} (h : W.step t l m = some (l', v))
    (rest : Alone t l' (Function.update m (W.own t) v) m') : Alone t l m m'

/-- The memory after a program whose threads run when they are created, if `finish` is what a thread
leaves in its region. -/
def sequential (finish : T → (R → V) → V) : List (Command T R V) → (R → V) → R → V
  | [], m => m
  | .create t :: commands, m => sequential finish commands (Function.update m (W.own t) (finish t m))
  | .join _ :: commands, m => sequential finish commands m
  | .assign a :: commands, m => sequential finish commands (Function.update m a.target (a.value m))

variable {W} {m' : R → V} {finish : T → (R → V) → V} {living : T → Option L}

lemma Alone.run (commands : List (Command T R V)) (h : Alone W t l m m') (hl : living t = some l) :
    ∃ n l', Run (ForkJoin.act W) n ⟨commands, living, m⟩
        ⟨commands, Function.update living t (some l'), m'⟩ ∧ W.step t l' m' = none := by
  induction h generalizing living with
  | @returned l m hreturned =>
    refine ⟨0, l, ?_, hreturned⟩
    rw [← hl, Function.update_eq_self]
    exact .refl _
  | @step l l' m m' v hstep rest ih =>
    obtain ⟨n, l'', hrun, hreturned⟩ := ih (Function.update_self t (some l') living)
    rw [Function.update_idem] at hrun
    exact ⟨n + 1, l'', .step (some t) (act_of_step hl hstep) hrun, hreturned⟩

lemma sequential_run (hfinish : ∀ t m, Alone W t (W.start t) m (Function.update m (W.own t) (finish t m)))
    (h : Ready W s) (hreturned : ∀ t l, s.live t = some l → W.step t l s.memory = none) :
    ∃ n s', Run (ForkJoin.act W) n s s' ∧ Terminal (ForkJoin.act W) s' ∧ s'.commands = [] ∧
      s'.memory = sequential W finish s.commands s.memory := by
  obtain ⟨commands, living, m⟩ := s
  induction commands generalizing living m with
  | nil =>
    refine ⟨0, _, .refl _, fun a => ?_, rfl, rfl⟩
    match a with
    | none => rfl
    | some t =>
      rw [ForkJoin.act]
      split
      · rfl
      · next l hl => simp only [hreturned t l hl]
  | cons command commands ih =>
    have hfine := h.fine
    cases command with
    | create t =>
      have hcreate : ForkJoin.act W none ⟨.create t :: commands, living, m⟩ =
          some ⟨commands, Function.update living t (some (W.start t)), m⟩ := rfl
      obtain ⟨n, l', hrun, hlast⟩ := (hfinish t m).run commands
        (Function.update_self t (some (W.start t)) living)
      rw [Function.update_idem] at hrun
      have hready := diamond.run (h.act hcreate) hrun
      obtain ⟨k, s', hmore, hend, hcommands, hmemory⟩ := ih _ _ hready fun u l hl => by
        dsimp only at hl
        by_cases hu : u = t
        · subst hu
          rw [Function.update_self] at hl
          rw [← Option.some.inj hl]
          exact hlast
        · rw [Function.update_of_ne hu] at hl
          have hlive : living u ≠ none := by
            rw [hl]
            exact Option.some_ne_none l
          have hapart := hfine.2.1 u hlive
          exact (step_update hapart.2.1).trans (hreturned u l hl)
      exact ⟨n + k + 1, s', .step none hcreate (hrun.trans hmore), hend, hcommands, hmemory⟩
    | join t =>
      obtain ⟨l, hl⟩ := Option.ne_none_iff_exists'.mp hfine.1
      have hlast := hreturned t l hl
      dsimp only at hl hlast
      have hjoin : ForkJoin.act W none ⟨.join t :: commands, living, m⟩ =
          some ⟨commands, Function.update living t none, m⟩ := by
        rw [ForkJoin.act]
        simp only [hl, hlast, Option.isSome_none, Bool.false_eq_true, if_false]
      obtain ⟨k, s', hmore, hend, hcommands, hmemory⟩ := ih _ _ (h.act hjoin) fun u l hu => by
        dsimp only at hu
        by_cases heq : u = t
        · rw [heq, Function.update_self] at hu
          cases hu
        · rw [Function.update_of_ne heq] at hu
          exact hreturned u l hu
      exact ⟨k + 1, s', .step none hjoin hmore, hend, hcommands, hmemory⟩
    | assign a =>
      have hassign : ForkJoin.act W none ⟨.assign a :: commands, living, m⟩ =
          some ⟨commands, living, Function.update m a.target (a.value m)⟩ := rfl
      obtain ⟨k, s', hmore, hend, hcommands, hmemory⟩ := ih _ _ (h.act hassign) fun u l hl => by
        have hlive : living u ≠ none := by
          rw [show living u = some l from hl]
          exact Option.some_ne_none l
        have hunused := (hfine.1 u hlive).2.1
        exact (step_update hunused).trans (hreturned u l hl)
      exact ⟨k + 1, s', .step none hassign hmore, hend, hcommands, hmemory⟩

theorem ends_sequential (hfinish : ∀ t m, Alone W t (W.start t) m (Function.update m (W.own t) (finish t m)))
    (hfine : Fine W commands fun _ => False) (m : R → V) :
    ∃ n s', Terminal (ForkJoin.act W) s' ∧ s'.commands = [] ∧
      s'.memory = sequential W finish commands m ∧
      ∀ k u, Run (ForkJoin.act W) k ⟨commands, fun _ => none, m⟩ u →
        k ≤ n ∧ Run (ForkJoin.act W) (n - k) u s' := by
  have hready : Ready W ⟨commands, fun _ => none, m⟩ :=
    ⟨hfine.congr fun t => ⟨False.elim, fun h => h rfl⟩, fun t u _ ht => absurd rfl ht⟩
  obtain ⟨n, s', hrun, hend, hcommands, hmemory⟩ := sequential_run hfinish hready
    fun t l hl => nomatch hl
  exact ⟨n, s', hend, hcommands, hmemory, fun k u h => diamond.complete hready hrun hend h⟩

end Sequential

section Loops

variable {f : ℕ → List (Command T R V)} {rest : List (Command T R V)}
  {finish : T → (R → V) → V} {start n : ℕ}

omit [DecidableEq T] in
lemma sequential_append (finish : T → (R → V) → V) (m : R → V) :
    sequential W finish (commands ++ rest) m = sequential W finish rest (sequential W finish commands m) := by
  induction commands generalizing m with
  | nil => rfl
  | cons command commands ih => cases command <;> exact ih _

omit [DecidableEq T] [DecidableEq R] in
lemma fine_loop (alive : ℕ → T → Prop)
    (hround : ∀ i commands, start ≤ i → i < start + n → Fine W commands (alive (i + 1)) →
      Fine W (f i ++ commands) (alive i))
    (hrest : Fine W rest (alive (start + n))) :
    Fine W ((List.range' start n).flatMap f ++ rest) (alive start) := by
  induction n generalizing start with
  | zero => exact hrest
  | succ n ih =>
    rw [List.range'_succ, List.flatMap_cons, List.append_assoc]
    apply hround start _ le_rfl (by omega)
    apply ih (fun i commands hle hlt => hround i commands (by omega) (by omega))
    rwa [Nat.add_right_comm]

omit [DecidableEq T] in
lemma sequential_loop (memory : ℕ → R → V)
    (hround : ∀ i, start ≤ i → i < start + n → sequential W finish (f i) (memory i) = memory (i + 1)) :
    sequential W finish ((List.range' start n).flatMap f) (memory start) = memory (start + n) := by
  induction n generalizing start with
  | zero => rfl
  | succ n ih =>
    rw [List.range'_succ, List.flatMap_cons, sequential_append, hround start le_rfl (by omega),
      ih fun i hle hlt => hround i (by omega) (by omega), Nat.add_right_comm]
    rfl

end Loops

section Families

def Among (thread : ℕ → T) (others : T → Prop) (i k : ℕ) (t : T) : Prop :=
  others t ∨ ∃ j, t = thread j ∧ i ≤ j ∧ j < k

variable {thread : ℕ → T} {others : T → Prop} {rest : List (Command T R V)} {start n i k : ℕ}

omit [DecidableEq T] in
lemma among_none (thread : ℕ → T) (others : T → Prop) (i : ℕ) (t : T) : Among thread others i i t ↔ others t := by
  rw [Among, or_iff_left]
  rintro ⟨j, -, hle, hlt⟩
  omega

omit [DecidableEq T] in
lemma among_create (hle : i ≤ k) (t : T) :
    Among thread others i (k + 1) t ↔ t = thread k ∨ Among thread others i k t := by
  constructor
  · rintro (h | ⟨j, rfl, hij, hjk⟩)
    · exact Or.inr (Or.inl h)
    · rcases Nat.lt_succ_iff_lt_or_eq.mp hjk with hjk | rfl
      · exact Or.inr (Or.inr ⟨j, rfl, hij, hjk⟩)
      · exact Or.inl rfl
  · rintro (rfl | h | ⟨j, rfl, hij, hjk⟩)
    · exact Or.inr ⟨k, rfl, hle, Nat.lt_succ_self k⟩
    · exact Or.inl h
    · exact Or.inr ⟨j, rfl, hij, hjk.trans (Nat.lt_succ_self k)⟩

omit [DecidableEq T] in
lemma among_join (hinj : Function.Injective thread) (hothers : ∀ j, ¬ others (thread j)) (i k : ℕ)
    (t : T) : Among thread others (i + 1) k t ↔ t ≠ thread i ∧ Among thread others i k t := by
  constructor
  · rintro (h | ⟨j, rfl, hij, hjk⟩)
    · exact ⟨fun heq => hothers i (heq ▸ h), Or.inl h⟩
    · refine ⟨fun heq => ?_, Or.inr ⟨j, rfl, by omega, hjk⟩⟩
      rw [hinj heq] at hij
      omega
  · rintro ⟨hne, h | ⟨j, rfl, hij, hjk⟩⟩
    · exact Or.inl h
    · have hji : j ≠ i := fun heq => hne (congrArg thread heq)
      exact Or.inr ⟨j, rfl, by omega, hjk⟩

omit [DecidableEq T] [DecidableEq R] in
lemma fine_joins (hinj : Function.Injective thread) (hothers : ∀ j, ¬ others (thread j))
    (hrest : Fine W rest others) :
    Fine W ((List.range' start n).flatMap (fun i => [.join (thread i)]) ++ rest)
      (Among thread others start (start + n)) := by
  apply fine_loop (fun i => Among thread others i (start + n))
  · intro i commands hle hlt hmore
    exact ⟨Or.inr ⟨i, rfl, le_rfl, hlt⟩, hmore.congr (among_join hinj hothers i _)⟩
  · exact hrest.congr fun t => (among_none thread others _ t).symm

omit [DecidableEq T] [DecidableEq R] in
lemma fine_create {commands : List (Command T R V)} (hothers : ∀ j, ¬ others (thread j))
    (hapart : ∀ {j}, j ≠ i → Apart W (thread i) (thread j)) (hbeside : ∀ u, others u → Apart W (thread i) u)
    (hinj : Function.Injective thread) (hle : start ≤ i)
    (hmore : Fine W commands (Among thread others start (i + 1))) :
    Fine W (.create (thread i) :: commands) (Among thread others start i) := by
  refine ⟨?_, ?_, hmore.congr (among_create hle)⟩
  · rintro (h | ⟨j, hj, -, hji⟩)
    · exact hothers i h
    · exact hji.ne (hinj hj).symm
  · rintro u (h | ⟨j, rfl, -, hji⟩)
    · exact hbeside u h
    · exact hapart hji.ne

end Families

end SystemsLab.Threads.ForkJoin
