import SystemsLab.Shell.PipeFailure

namespace SystemsLab.Shell

open Effects Tables Plumbing

structure Redirected (base put : Plumbing.Table) : Prop where
  rest : ∀ fd, fd ≠ 0 → fd ≠ 1 → put.get fd = base.get fd
  stdin : put.get 0 ≠ none
  stdout : put.get 1 ≠ none

def Held (base table : Plumbing.Table) (i o : Option ℕ) : Prop :=
  ∃ put x y, Redirected base put ∧ Plumbed put table i o x y

structure Opens (command : CommandLine.Command) (a : ChildAnswers) : Prop where
  stdin : command.stdin ≠ none → a.openStdinFails = false
  stdout : command.stdout ≠ none → a.openStdoutFails = false

structure Dups (command : CommandLine.Command) (a : ChildAnswers) : Prop where
  stdin : command.stdin ≠ none → a.dupStdinFails = false
  stdout : command.stdout ≠ none → a.dupStdoutFails = false

inductive FirstOpenFails (command : CommandLine.Command) (a : ChildAnswers) : Prop
  | stdin (h : command.stdin ≠ none) (hf : a.openStdinFails = true)
  | stdout (hi : command.stdin = none) (h : command.stdout ≠ none) (hf : a.openStdoutFails = true)

variable {base put table : Plumbing.Table} {i o p : Option ℕ} {x : Option OpenFile} {fd : ℕ}
  {command : CommandLine.Command} {a : ChildAnswers} {process : ProcessFds}

lemma stdinFile_eq_none_iff : stdinFile command = none ↔ command.stdin = none := Option.map_eq_none_iff

lemma stdoutFile_eq_none_iff : stdoutFile command = none ↔ command.stdout = none :=
  Option.map_eq_none_iff

lemma Opens.not_firstOpenFails (h : Opens command a) : ¬ FirstOpenFails command a := by
  intro hf
  cases hf with
  | stdin hi hfails => exact Bool.false_ne_true ((h.stdin hi).symm.trans hfails)
  | stdout _ ho hfails => exact Bool.false_ne_true ((h.stdout ho).symm.trans hfails)

lemma Redirected.overlay (h : Redirected base put) {target : ℕ} (ht : target = 0 ∨ target = 1) :
    Redirected base (overlay put target x) := by
  have hopen : ∀ {fd}, put.get fd ≠ none → (Plumbing.overlay put target x).get fd ≠ none := by
    intro fd hfd
    rw [get_overlay]
    split_ifs
    · cases x with
      | none => exact hfd
      | some z => exact Option.some_ne_none z
    · exact hfd
  refine ⟨fun fd h0 h1 => ?_, hopen h.stdin, hopen h.stdout⟩
  have hne : fd ≠ target := by omega
  rw [get_overlay, if_neg hne, h.rest fd h0 h1]

namespace Held

lemma swap (h : Held base table i o) : Held base table o i := by
  obtain ⟨put, x, y, hput, hp⟩ := h
  exact ⟨put, y, x, hput, hp.swap⟩

lemma redirect_ok (h : Held base table i o) (z : OpenFile) :
    ∃ fd table', redirect false (some z) i table = .ok (some fd, table') ∧
      Held base table' (some fd) o := by
  obtain ⟨put, x, y, hput, hp⟩ := h
  exact ⟨_, _, rfl, put, some z, y, hput, hp.replace z⟩

lemma dupOnto_ok (h : Held base table (some fd) o) {target : ℕ} (ht : target = 0 ∨ target = 1) :
    ∃ table', dupOnto false target (some fd) table = .ok table' ∧ Held base table' none o := by
  obtain ⟨put, x, y, hput, hp⟩ := h
  have htarget : put.get target ≠ none := by
    rcases ht with rfl | rfl
    · exact hput.stdin
    · exact hput.stdout
  obtain ⟨table', hdup, hp'⟩ := Plumbing.dupOnto_ok hp htarget
  exact ⟨table', hdup, _, none, y, hput.overlay ht, hp'⟩

end Held

inductive SetUp (base : Plumbing.Table) (command : CommandLine.Command) (a : ChildAnswers) :
    ℤ × ProcessFds × Plumbing.Table → Prop
  | opened {process : ProcessFds} {table : Plumbing.Table}
    (h : Held base table process.stdinFd process.stdoutFd) (ho : Opens command a)
    (hin : process.stdinFd = none ↔ command.stdin = none)
    (hout : process.stdoutFd = none ↔ command.stdout = none) : SetUp base command a (0, process, table)
  | refused {process : ProcessFds} {table : Plumbing.Table}
    (h : Held base table process.stdinFd process.stdoutFd) (hno : ¬ Opens command a)
    (hfirst : process.stdinFd = none ∧ process.stdoutFd = none ↔ FirstOpenFails command a) :
    SetUp base command a (1, process, table)

lemma setUp_stdout (h : Held base table p none) (hp : p = none ↔ command.stdin = none)
    (hin : command.stdin ≠ none → a.openStdinFails = false) :
    SetUp base command a
      (match redirect a.openStdoutFails (stdoutFile command) none table with
      | .error status => (status, ⟨p, none⟩, table)
      | .ok (stdoutFd, table) => (0, ⟨p, stdoutFd⟩, table)) := by
  cases hfile : stdoutFile command with
  | none =>
    have hnone : command.stdout = none := stdoutFile_eq_none_iff.mp hfile
    exact .opened h ⟨hin, fun hne => absurd hnone hne⟩ hp ⟨fun _ => hnone, fun _ => rfl⟩
  | some z =>
    have hne : command.stdout ≠ none := by
      rw [ne_eq, ← stdoutFile_eq_none_iff, hfile]
      exact Option.some_ne_none z
    cases hfails : a.openStdoutFails with
    | true =>
      refine .refused h (fun ho => ?_) ?_
      · exact Bool.false_ne_true ((ho.stdout hne).symm.trans hfails)
      · rw [hp]
        constructor
        · exact fun hi => .stdout hi.1 hne hfails
        · intro hf
          cases hf with
          | stdin hi hf => exact absurd ((hin hi).symm.trans hf) Bool.false_ne_true
          | stdout hi _ _ => exact ⟨hi, rfl⟩
    | false =>
      obtain ⟨fd, table', hok, hheld⟩ := h.swap.redirect_ok z
      rw [hok]
      exact .opened hheld.swap ⟨hin, fun _ => hfails⟩ hp
        (iff_of_false (Option.some_ne_none fd) hne)

lemma setUp_setupRedirection (h : Held base table none none) :
    SetUp base command a (Holder.setupRedirection command a ⟨none, none⟩ table) := by
  rw [Holder.setupRedirection]
  cases hfile : stdinFile command with
  | none =>
    have hnone : command.stdin = none := stdinFile_eq_none_iff.mp hfile
    exact setUp_stdout h ⟨fun _ => hnone, fun _ => rfl⟩ fun hne => absurd hnone hne
  | some z =>
    have hne : command.stdin ≠ none := by
      rw [ne_eq, ← stdinFile_eq_none_iff, hfile]
      exact Option.some_ne_none z
    cases hfails : a.openStdinFails with
    | true =>
      refine .refused h (fun ho => ?_) ⟨fun _ => .stdin hne hfails, fun _ => ⟨rfl, rfl⟩⟩
      exact Bool.false_ne_true ((ho.stdin hne).symm.trans hfails)
    | false =>
      obtain ⟨fd, table', hok, hheld⟩ := h.redirect_ok z
      rw [hok]
      exact setUp_stdout hheld (iff_of_false (Option.some_ne_none fd) hne) fun _ => hfails

lemma Held.dup2_stdout (h : Held base table none o) (fails : Bool) :
    ∃ status table' o', (match dupOnto fails 1 o table with
      | .error status => (status, table)
      | .ok table => ((0 : ℤ), table)) = (status, table') ∧ Held base table' none o' ∧
      (o' = none ↔ (o ≠ none → fails = false)) := by
  cases o with
  | none => exact ⟨0, table, none, rfl, h, ⟨fun _ hne => absurd rfl hne, fun _ => rfl⟩⟩
  | some fd =>
    cases fails with
    | true =>
      have hopen : some fd ≠ none := Option.some_ne_none fd
      refine ⟨1, table, some fd, rfl, h, fun ho => absurd ho hopen, fun hf => ?_⟩
      cases hf hopen
    | false =>
      obtain ⟨table', hok, hheld⟩ := h.swap.dupOnto_ok (Or.inr rfl)
      rw [hok]
      exact ⟨0, table', none, rfl, hheld.swap, ⟨fun _ _ => rfl, fun _ => rfl⟩⟩

lemma Held.dup2Stdio (h : Held base table process.stdinFd process.stdoutFd) :
    ∃ status table' i o, Holder.dup2Stdio a process table = (status, table') ∧
      Held base table' i o ∧ ((i = none ∧ o = none) ↔
        (process.stdinFd ≠ none → a.dupStdinFails = false) ∧
          (process.stdoutFd ≠ none → a.dupStdoutFails = false)) := by
  obtain ⟨i, o⟩ := process
  simp only [Holder.dup2Stdio] at h ⊢
  cases i with
  | none =>
    obtain ⟨status, table', o', hdup, hheld, ho⟩ := h.dup2_stdout a.dupStdoutFails
    refine ⟨status, table', none, o', hdup, hheld, ?_⟩
    rw [ho]
    exact and_congr_left fun _ => ⟨fun _ hne => absurd rfl hne, fun _ => rfl⟩
  | some fd =>
    cases hfails : a.dupStdinFails with
    | true =>
      refine ⟨1, table, some fd, o, rfl, h, fun hi => ?_, fun hf => ?_⟩
      · cases hi.1
      · cases hf.1 (Option.some_ne_none fd)
    | false =>
      obtain ⟨table₁, hok, hheld₁⟩ := h.dupOnto_ok (Or.inl rfl)
      obtain ⟨status, table', o', hdup, hheld, ho⟩ := hheld₁.dup2_stdout a.dupStdoutFails
      rw [hok]
      refine ⟨status, table', none, o', hdup, hheld, ?_⟩
      rw [ho]
      exact and_congr_left fun _ => ⟨fun _ _ => rfl, fun _ => rfl⟩

def FailsClean (command : CommandLine.Command) (a : ChildAnswers) : Prop :=
  FirstOpenFails command a ∨ Opens command a ∧ Dups command a

lemma Held.redirectStdio (h : Held base table none none) :
    ∃ status table' i o, Holder.redirectStdio command a table = (status, table') ∧
      Held base table' i o ∧ ((i = none ∧ o = none) ↔ FailsClean command a) := by
  have hsetUp : SetUp base command a (Holder.setupRedirection command a ⟨none, none⟩ table) :=
    setUp_setupRedirection h
  rw [Holder.redirectStdio]
  generalize Holder.setupRedirection command a ⟨none, none⟩ table = result at hsetUp ⊢
  cases hsetUp with
  | opened hheld ho hin hout =>
    obtain ⟨status, table', i, o, hdup, hheld', hnone⟩ := hheld.dup2Stdio (a := a)
    refine ⟨status, table', i, o, hdup, hheld', hnone.trans ?_⟩
    simp only [ne_eq, hin, hout, FailsClean]
    constructor
    · exact fun hd => Or.inr ⟨ho, ⟨hd.1, hd.2⟩⟩
    · rintro (hf | ⟨-, hd⟩)
      · exact absurd hf ho.not_firstOpenFails
      · exact ⟨hd.stdin, hd.stdout⟩
  | refused hheld hno hfirst =>
    refine ⟨1, _, _, _, rfl, hheld, hfirst.trans ?_⟩
    rw [FailsClean]
    constructor
    · exact Or.inl
    · rintro (hf | ⟨ho, -⟩)
      · exact hf
      · exact absurd ho hno

lemma Held.get_of_open {z : OpenFile} (h : Held base table i o) (hfd : base.get fd = some z)
    (h0 : fd ≠ 0) (h1 : fd ≠ 1) : table.get fd = some z := by
  obtain ⟨put, x, y, hput, hp⟩ := h
  have hopen : put.get fd = some z := by rw [hput.rest fd h0 h1, hfd]
  have hi : i ≠ some fd := by
    intro hi
    rw [hp.inFree fd hi] at hopen
    cases hopen
  have ho : o ≠ some fd := by
    intro ho
    rw [hp.outFree fd ho] at hopen
    cases hopen
  rw [hp.get fd, if_neg hi, if_neg ho, hopen]

lemma Held.own (h : Held base table (some fd) o) :
    base.get fd = none ∧ fd ≠ 0 ∧ fd ≠ 1 ∧ table.get fd ≠ none := by
  obtain ⟨put, x, y, hput, hp⟩ := h
  have hfree := hp.inFree fd rfl
  have h0 : fd ≠ 0 := by
    rintro rfl
    exact hput.stdin hfree
  have h1 : fd ≠ 1 := by
    rintro rfl
    exact hput.stdout hfree
  refine ⟨?_, h0, h1, ?_⟩
  · rw [← hput.rest fd h0 h1, hfree]
  · rw [hp.get fd, if_pos rfl]
    intro hx
    cases hp.input.mp hx

lemma Held.get_of_none (h : Held base table none none) (h0 : fd ≠ 0) (h1 : fd ≠ 1) :
    table.get fd = base.get fd := by
  obtain ⟨put, x, y, hput, hp⟩ := h
  have hnone : none ≠ some fd := (Option.some_ne_none fd).symm
  rw [hp.get fd, if_neg hnone, if_neg hnone, hput.rest fd h0 h1]

structure Restored (before after : Plumbing.Table) : Prop where
  stdin : after.get 0 = before.get 0
  stdout : after.get 1 = before.get 1
  fds : openFds after = openFds before

section Backups

variable {before : Plumbing.Table} {u v : ℕ} {z w : OpenFile}

def putBack (table : Plumbing.Table) (u v : ℕ) (z w : OpenFile) : Plumbing.Table :=
  closeFd (closeFd ((table.set 0 (some z)).set 1 (some w)) (some u)) (some v)

lemma get_putBack (table : Plumbing.Table) (u v : ℕ) (z w : OpenFile) (fd : ℕ) :
    (putBack table u v z w).get fd = if fd = v ∨ fd = u then none else if fd = 1 then some w
      else if fd = 0 then some z else table.get fd := by
  rw [putBack, get_closeFd, get_closeFd, FdTable.get_set, FdTable.get_set]
  simp only [Option.some.injEq, eq_comm (b := fd), ite_or]

lemma dup_ok (h : table.get fd = some z) :
    Holder.dup false fd table = (some (table.openAt z).1, (table.openAt z).2) := by
  rw [Holder.dup, h]
  rfl

lemma dup2_ok {target : ℕ} (h : table.get fd = some z) :
    Holder.dup2 false fd target table = (false, table.set target (some z)) := by
  rw [Holder.dup2, FdTable.dup2, h]
  rfl

lemma backups_ok (h0 : before.get 0 = some z) (h1 : before.get 1 = some w) :
    ∃ u v table table', Holder.dup false 0 before = (some u, table) ∧
      Holder.dup false 1 table = (some v, table') ∧
      Plumbed before table' (some u) (some v) (some z) (some w) := by
  have hp := (Plumbed.refl before).replace z
  have hget : (before.openAt z).2.get 1 = some w := by
    have hne : (before.openAt z).1 ≠ 1 := by
      intro he
      have hfree := hp.inFree 1 (congrArg some he)
      rw [h1] at hfree
      cases hfree
    have hnone : none ≠ some 1 := (Option.some_ne_none 1).symm
    have hsame := hp.get 1
    rw [if_neg fun he => hne (Option.some.inj he), if_neg hnone, h1] at hsame
    exact hsame
  exact ⟨_, _, _, _, dup_ok h0, dup_ok hget, (hp.swap.replace w).swap⟩

lemma copies_ne (hb : Plumbed before base (some u) (some v) (some z) (some w))
    (hfd : before.get fd ≠ none) : ¬ (fd = v ∨ fd = u) := by
  rintro (rfl | rfl)
  · exact hfd (hb.outFree fd rfl)
  · exact hfd (hb.inFree fd rfl)

lemma get_base_of_not_copy (hb : Plumbed before base (some u) (some v) (some z) (some w))
    (hfd : ¬ (fd = v ∨ fd = u)) : base.get fd = before.get fd := by
  rw [not_or] at hfd
  rw [hb.get fd, if_neg fun he => hfd.2 (Option.some.inj he).symm,
    if_neg fun he => hfd.1 (Option.some.inj he).symm]

lemma not_copy_of_free (hb : Plumbed before base (some u) (some v) (some z) (some w))
    (hfd : base.get fd = none) : ¬ (fd = v ∨ fd = u) := by
  obtain ⟨hu, hv, -⟩ := hb.of_get_none hfd
  rintro (rfl | rfl)
  · exact hv rfl
  · exact hu rfl

lemma restored_putBack_iff (h0 : before.get 0 = some z) (h1 : before.get 1 = some w)
    (hb : Plumbed before base (some u) (some v) (some z) (some w)) (h : Held base table i o) :
    Restored before (putBack table u v z w) ↔ i = none ∧ o = none := by
  constructor
  · rintro ⟨-, -, hfds⟩
    have hown : ∀ {fd q}, ¬ Held base table (some fd) q := by
      intro fd q hheld
      obtain ⟨hfree, hne0, hne1, hopen⟩ := hheld.own
      have hcopy := not_copy_of_free hb hfree
      have hafter : fd ∈ openFds (putBack table u v z w) := by
        rwa [mem_openFds, get_putBack, if_neg hcopy, if_neg hne1, if_neg hne0]
      rw [hfds, mem_openFds, ← get_base_of_not_copy hb hcopy] at hafter
      exact hafter hfree
    constructor
    · cases i with
      | none => rfl
      | some fd => exact absurd h hown
    · cases o with
      | none => rfl
      | some fd => exact absurd h.swap hown
  · rintro ⟨rfl, rfl⟩
    have hopen0 : before.get 0 ≠ none := by
      rw [h0]
      exact Option.some_ne_none z
    have hopen1 : before.get 1 ≠ none := by
      rw [h1]
      exact Option.some_ne_none w
    have hstdin : (putBack table u v z w).get 0 = before.get 0 := by
      rw [get_putBack, if_neg (copies_ne hb hopen0), if_neg Nat.zero_ne_one, if_pos rfl, h0]
    have hstdout : (putBack table u v z w).get 1 = before.get 1 := by
      rw [get_putBack, if_neg (copies_ne hb hopen1), if_pos rfl, h1]
    refine ⟨hstdin, hstdout, ?_⟩
    ext fd
    rw [mem_openFds, mem_openFds]
    by_cases hcopy : fd = v ∨ fd = u
    · have hclosed : before.get fd = none := by
        by_contra hne
        exact copies_ne hb hne hcopy
      rw [get_putBack, if_pos hcopy, hclosed]
    · by_cases hfd1 : fd = 1
      · rw [hfd1, hstdout]
      · by_cases hfd0 : fd = 0
        · rw [hfd0, hstdin]
        · rw [get_putBack, if_neg hcopy, if_neg hfd1, if_neg hfd0, h.get_of_none hfd0 hfd1,
            get_base_of_not_copy hb hcopy]

end Backups

def LeadsTo {α : Type} (table table' : Plumbing.Table) (m : HolderM α) : Prop :=
  ∀ s, Ends m (fun _ h' => h'.fds = table') (fun _ _ => True) ⟨s, table⟩

namespace LeadsTo

variable {α β : Type} {table' table'' : Plumbing.Table} {m m' : HolderM α} {g : α → HolderM β}

lemma pure (b : α) : LeadsTo table table (Pure.pure b) := fun _ => rfl

lemma lift (n : ShellM α) : LeadsTo table table (liftM n) := by
  intro s
  refine ends_run.mpr ?_
  rw [Ends]
  split
  · rfl
  · trivial

lemma bind (hm : LeadsTo table table' m) (hg : ∀ b, LeadsTo table' table'' (g b)) :
    LeadsTo table table'' (m >>= g) := by
  intro s
  rw [ends_bind]
  refine (hm s).imp fun b h' hb => ?_
  obtain ⟨s', fds⟩ := h'
  cases hb
  exact hg b s'

lemma onFds_bind {f : Plumbing.Table → α × Plumbing.Table}
    (hg : LeadsTo (f table).2 table' (g (f table).1)) :
    LeadsTo table table' (Holder.onFds f >>= g) := by
  intro s
  rw [ends_bind, Holder.ends_onFds]
  exact hg s

lemma modifyFds_bind {f : Plumbing.Table → Plumbing.Table} {g : Unit → HolderM β}
    (hg : LeadsTo (f table) table' (g ())) :
    LeadsTo table table' (Holder.onFds (fun table => ((), f table)) >>= g) :=
  onFds_bind hg

lemma ite {c : Prop} [Decidable c] (hm : LeadsTo table table' m) (hm' : LeadsTo table table' m') :
    LeadsTo table table' (if c then m else m') := by
  by_cases hc : c
  · rwa [if_pos hc]
  · rwa [if_neg hc]

end LeadsTo

structure BacksUp (table : Plumbing.Table) (b : BuiltinAnswers) : Prop where
  stdin : table.get 0 ≠ none
  stdout : table.get 1 ≠ none
  backUpStdin : b.backUpStdinFails = false
  backUpStdout : b.backUpStdoutFails = false
  restoreStdin : b.restoreStdinFails = false
  restoreStdout : b.restoreStdoutFails = false

def ExitRefused (command : CommandLine.Command) (s : State) : Prop :=
  command.args.head? = some (CLib.ascii "exit") ∧ s.jobs.numJobs ≠ 0

section Commands

variable {before base : Plumbing.Table} {u v : ℕ} {z w : OpenFile} {b : BuiltinAnswers}

lemma leadsTo_runRedirected (hback : BacksUp before b)
    (hb : Plumbed before base (some u) (some v) (some z) (some w)) {status : ℤ}
    (hredirect : Holder.redirectStdio command b.redirecting base = (status, table))
    (hheld : Held base table i o) (name : CLib.Bytes) (operands : List CLib.Bytes) (lastStatus : ℤ)
    (answers : Answers) :
    LeadsTo base ((table.set 0 (some z)).set 1 (some w))
      (Holder.runRedirected command name operands lastStatus answers b (some u) (some v)) := by
  have hne : ∀ {fd q}, before.get q ≠ none → fd = v ∨ fd = u → fd ≠ q := by
    rintro fd q hq hcopy rfl
    exact copies_ne hb hq hcopy
  have hu : table.get u = some z := by
    apply hheld.get_of_open
    · rw [hb.get u, if_pos rfl]
    · exact hne hback.stdin (Or.inr rfl)
    · exact hne hback.stdout (Or.inr rfl)
  have hv : table.get v = some w := by
    apply hheld.get_of_open
    · rw [hb.get v, if_neg fun he => hb.apart v he rfl, if_pos rfl]
    · exact hne hback.stdin (Or.inl rfl)
    · exact hne hback.stdout (Or.inl rfl)
  have hv' : (table.set 0 (some z)).get v = some w := by
    rw [FdTable.get_set_of_ne (hne hback.stdin (Or.inl rfl)), hv]
  have hlast : ∀ status : ℤ, LeadsTo table ((table.set 0 (some z)).set 1 (some w))
      (do
        let stdinFailed ← Holder.onFds (Holder.dup2 b.restoreStdinFails u 0)
        let stdoutFailed ← Holder.onFds (Holder.dup2 b.restoreStdoutFails v 1)
        return if stdinFailed || stdoutFailed then 1 else status) := by
    intro status
    rw [hback.restoreStdin, hback.restoreStdout]
    apply LeadsTo.onFds_bind
    rw [dup2_ok hu]
    apply LeadsTo.onFds_bind
    rw [dup2_ok hv']
    exact LeadsTo.pure _
  rw [Holder.runRedirected]
  apply LeadsTo.onFds_bind
  rw [hredirect]
  apply LeadsTo.ite
  · exact LeadsTo.bind (LeadsTo.lift _) hlast
  · exact LeadsTo.bind (LeadsTo.pure _) hlast

lemma leadsTo_putBack (hback : BacksUp before b) {table₁ : Plumbing.Table}
    (hdup0 : Holder.dup false 0 before = (some u, table₁))
    (hdup1 : Holder.dup false 1 table₁ = (some v, base))
    (hb : Plumbed before base (some u) (some v) (some z) (some w)) {status : ℤ}
    (hredirect : Holder.redirectStdio command b.redirecting base = (status, table))
    (hheld : Held base table i o) (name : CLib.Bytes) (operands : List CLib.Bytes) (lastStatus : ℤ)
    (answers : Answers) :
    LeadsTo before (putBack table u v z w) (do
      let stdinBackup ← Holder.onFds (Holder.dup b.backUpStdinFails 0)
      let stdoutBackup ← Holder.onFds (Holder.dup b.backUpStdoutFails 1)
      let r ← defaultJob
      setForegroundJob r
      let status ← Holder.runRedirected command name operands lastStatus answers b stdinBackup
        stdoutBackup
      Holder.onFds fun table => ((), closeFd table stdinBackup)
      Holder.onFds fun table => ((), closeFd table stdoutBackup)
      if (← slot 0) = some r then removeForegroundJob true
      return status) := by
  have hrun := leadsTo_runRedirected hback hb hredirect hheld name operands lastStatus answers
  rw [hback.backUpStdin, hback.backUpStdout, putBack]
  apply LeadsTo.onFds_bind
  rw [hdup0]
  apply LeadsTo.onFds_bind
  rw [hdup1]
  apply LeadsTo.bind (LeadsTo.lift _)
  intro r
  apply LeadsTo.bind (LeadsTo.lift _)
  intro _
  apply LeadsTo.bind hrun
  intro status
  apply LeadsTo.modifyFds_bind
  apply LeadsTo.modifyFds_bind
  apply LeadsTo.bind (LeadsTo.lift _)
  intro front
  apply LeadsTo.ite
  · exact LeadsTo.bind (LeadsTo.lift _) fun _ => LeadsTo.pure status
  · exact LeadsTo.pure status

lemma held_base (hback : BacksUp before b)
    (hb : Plumbed before base (some u) (some v) (some z) (some w)) : Held base base none none := by
  refine ⟨base, none, none, ⟨fun _ _ _ => rfl, ?_, ?_⟩, .refl base⟩
  · rw [get_base_of_not_copy hb (copies_ne hb hback.stdin)]
    exact hback.stdin
  · rw [get_base_of_not_copy hb (copies_ne hb hback.stdout)]
    exact hback.stdout

lemma ends_runSingleBuiltinCommand_restored (hback : BacksUp before b)
    (command : CommandLine.Command) (lastStatus : ℤ) (answers : Answers) (s : State) :
    Ends (Holder.runSingleBuiltinCommand command lastStatus answers b)
      (fun _ h' => Restored before h'.fds ↔
        ExitRefused command s ∨ FailsClean command b.redirecting)
      (fun _ _ => True) ⟨s, before⟩ := by
  rw [Holder.runSingleBuiltinCommand]
  cases hargs : command.args with
  | nil => exact trivial
  | cons name operands =>
    rw [Holder.ends_lift_bind, ends_isJobTableEmpty]
    have hrefused : name = CLib.ascii "exit" ∧ (s.jobs.numJobs == 0) = false ↔
        ExitRefused command s := by
      rw [ExitRefused, hargs, List.head?_cons, Option.some.injEq, beq_eq_false_iff_ne]
    by_cases hexit : name = CLib.ascii "exit" ∧ (s.jobs.numJobs == 0) = false
    · rw [if_pos hexit]
      exact ⟨fun _ => Or.inl (hrefused.mp hexit), fun _ => ⟨rfl, rfl, rfl⟩⟩
    · rw [if_neg hexit]
      obtain ⟨z, h0⟩ := Option.ne_none_iff_exists'.mp hback.stdin
      obtain ⟨w, h1⟩ := Option.ne_none_iff_exists'.mp hback.stdout
      obtain ⟨u, v, table₁, base, hdup0, hdup1, hb⟩ := backups_ok h0 h1
      obtain ⟨status, table, i, o, hredirect, hheld, hclean⟩ := (held_base hback hb).redirectStdio
      have hleads := leadsTo_putBack hback hdup0 hdup1 hb hredirect hheld name operands lastStatus
        answers
      refine (hleads s).imp fun _ h' hfds => ?_
      rw [hfds, restored_putBack_iff h0 h1 hb hheld, hclean]
      constructor
      · exact Or.inr
      · rintro (hr | hclean)
        · exact absurd (hrefused.mpr hr) hexit
        · exact hclean

end Commands

theorem builtin_restores_iff (command : CommandLine.Command) (lastStatus : ℤ) (a : Answers)
    (b : BuiltinAnswers) (h h' : Holder) (status : ℤ) (hb : BacksUp h.fds b)
    (hrun : Holder.runSingleBuiltinCommand command lastStatus a b h = .ok status h') :
    Restored h.fds h'.fds ↔ ExitRefused command h.shell ∨ FailsClean command b.redirecting :=
  (ends_runSingleBuiltinCommand_restored hb command lastStatus a h.shell).ok hrun

def pwdTo (stdin : Option CLib.Bytes) : CommandLine.Command :=
  ⟨[CLib.ascii "pwd"], stdin, some (CLib.ascii "out"), false, .builtin⟩

def quiet : Answers := ⟨fun _ => ⟨false, none, .obeyed⟩, [], false, 0, false, 0⟩

def atStart : Holder := ⟨initialState, inherit ⟨[some 0, some 1, some 2]⟩⟩

theorem builtin_restores_pwd : ∃ status h',
    Holder.runSingleBuiltinCommand (pwdTo none) 0 quiet
      ⟨false, false, ⟨false, false, false, false⟩, false, false⟩ atStart = .ok status h' ∧
      Restored atStart.fds h'.fds := by
  have hb : BacksUp atStart.fds ⟨false, false, ⟨false, false, false, false⟩, false, false⟩ :=
    ⟨Option.some_ne_none _, Option.some_ne_none _, rfl, rfl, rfl, rfl⟩
  refine ⟨_, _, rfl, ?_⟩
  refine (builtin_restores_iff (pwdTo none) 0 quiet _ atStart _ _ hb rfl).mpr (Or.inr (Or.inr ?_))
  exact ⟨⟨fun _ => rfl, fun _ => rfl⟩, ⟨fun _ => rfl, fun _ => rfl⟩⟩

/-- `pwd < in > out` keeps `in` open when `out` cannot be opened. -/
theorem builtin_leaks_stdin :
    ¬ ∀ (command : CommandLine.Command) (lastStatus : ℤ) (a : Answers) (b : BuiltinAnswers)
      (h h' : Holder) (status : ℤ), BacksUp h.fds b →
        Holder.runSingleBuiltinCommand command lastStatus a b h = .ok status h' →
          Restored h.fds h'.fds := by
  intro hclaim
  have hb : BacksUp atStart.fds ⟨false, false, ⟨false, true, false, false⟩, false, false⟩ :=
    ⟨Option.some_ne_none _, Option.some_ne_none _, rfl, rfl, rfl, rfl⟩
  have hends := ends_runSingleBuiltinCommand_restored hb (pwdTo (some (CLib.ascii "in"))) 0 quiet
    initialState
  have hrestored := hclaim (pwdTo (some (CLib.ascii "in"))) 0 quiet _ atStart _ _ hb rfl
  rcases (hends.ok rfl).mp hrestored with ⟨-, hjobs⟩ | hfirst | ⟨hopens, -⟩
  · exact hjobs rfl
  · cases hfirst with
    | stdin _ hf => cases hf
    | stdout hi _ _ => cases hi
  · cases hopens.stdout (Option.some_ne_none _)

end SystemsLab.Shell
