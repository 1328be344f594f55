import SystemsLab.CLib.Disk
import SystemsLab.Executables.Move
import Mathlib.Data.List.Infix

namespace SystemsLab.Executables.Remove

open CLib

/-- Why `unlink` fails: whether with `EISDIR` or `EPERM`, and the text of `strerror`. -/
structure Failure where
  mayBeDirectory : Bool
  reason : Bytes

/-- `refuses` is for what a path does not tell, such as missing permission. -/
structure World where
  strerror : PathError → Bytes
  refuses : ℕ → Option Failure

structure Run where
  disk : Disk
  err : Bytes

def complaint (text : Bytes) : Bytes := ascii "pa2_rm: " ++ text ++ [newline]

def Run.complain (r : Run) (text : Bytes) : Run := { r with err := r.err ++ complaint text }

def cannotRemove (path reason : Bytes) : Bytes :=
  ascii "cannot remove '" ++ path ++ ascii "': " ++ reason

def isDirectoryAt (d : Disk) (path : Bytes) : Bool :=
  match d.find path with
  | .ok i => (d.node i).isDirectory
  | .error _ => false

variable (w : World)

def unlink (k : ℕ) (d : Disk) (path : Bytes) : Except Failure Disk :=
  match w.refuses k with
  | some failure => .error failure
  | none => (d.unlink path).mapError fun e => ⟨decide (e = .isDirectory), w.strerror e⟩

def removePath (k : ℕ) (path : Bytes) (r : Run) : ℕ × Run :=
  match unlink w k r.disk path with
  | .ok disk => (0, { r with disk := disk })
  | .error failure =>
    if failure.mayBeDirectory && isDirectoryAt r.disk path then
      (1, r.complain (cannotRemove path (ascii "Is a directory")))
    else (1, r.complain (cannotRemove path failure.reason))

/-- The loop of `main`. -/
def removeAll (k : ℕ) : List Bytes → ℕ → Run → ℕ × Run
  | [], status, r => (status, r)
  | path :: paths, status, r =>
    let (failed, r) := removePath w k path r
    removeAll (k + 1) paths (if failed ≠ 0 then 1 else status) r

def main (argv : List Bytes) (r : Run) : ℕ × Run :=
  if argv.length = 1 then (1, r.complain (ascii "missing operand"))
  else
    let (status, r) := removeAll w 0 (argv.drop 1) 0 r
    (if status = 0 then 0 else 1, r)

def IsFile (d : Disk) (path : Bytes) : Prop := ∃ i bytes, d.find path = .ok i ∧ d.node i = .file bytes

def Gone (d : Disk) (path : Bytes) : Prop := ∀ i, d.find path ≠ .ok i

variable {w} {d d' : Disk} {r : Run} {k i status : ℕ} {path : Bytes} {paths : List Bytes}

lemma complaint_ne_nil (text : Bytes) : complaint text ≠ [] := by
  rw [complaint]
  simp

lemma complain_ne (r : Run) (text : Bytes) : (r.complain text).err ≠ r.err :=
  fun h => complaint_ne_nil text (List.append_right_eq_self.mp h)

lemma isFile_of_kind (hfind : d.find path = .ok i) (hkind : (d.node i).isDirectory = false) :
    IsFile d path := by
  cases hnode : d.node i with
  | file bytes => exact ⟨i, bytes, hfind, hnode⟩
  | directory =>
    rw [hnode] at hkind
    cases hkind

lemma IsFile.unlink (h : IsFile d path) : ∃ d', d.unlink path = .ok d' := by
  obtain ⟨i, bytes, hfind, hnode⟩ := h
  obtain ⟨hpath, -, hslash⟩ := Disk.find_eq hfind
  have hkind : (d.node i).isDirectory = false := by
    rw [hnode]
    rfl
  have hends : ¬ Move.endsWithSlash path = true := by
    intro hends
    obtain ⟨dir, rfl⟩ := Move.endsWithSlash_iff.mp hends
    rw [hslash List.getLast?_concat] at hkind
    cases hkind
  have hname : Move.pa2Basename path ≠ [] := by
    rwa [ne_eq, Move.pa2Basename_eq_nil_iff hpath]
  exact Disk.unlink_of_find hfind hkind (Move.getLast_components hname)

lemma Gone.shrinks (h : Gone d path) (hd : d.Shrinks d') : Gone d' path :=
  fun i hfind => h i (hd.find hfind)

lemma IsFile.of_shrinks (h : IsFile d' path) (hd : d.Shrinks d') : IsFile d path := by
  obtain ⟨i, bytes, hfind, hnode⟩ := h
  exact ⟨i, bytes, hd.find hfind, hd.node_eq ▸ hnode⟩

structure RemoveSpec (w : World) (k : ℕ) (path : Bytes) (r : Run) (done : ℕ × Run) : Prop where
  shrinks : r.disk.Shrinks done.2.disk
  grows : r.err <+: done.2.err
  silent : done.1 = 0 ↔ done.2.err = r.err
  removes : done.1 = 0 → IsFile r.disk path ∧ Gone done.2.disk path
  succeeds : w.refuses k = none → IsFile r.disk path → done.1 = 0
  others : ∀ other i, r.disk.find other = .ok i → r.disk.find path ≠ .ok i →
    done.2.disk.find other = .ok i

lemma removeSpec_complain (text : Bytes) (h : w.refuses k = none → ¬ IsFile r.disk path) :
    RemoveSpec w k path r (1, r.complain text) where
  shrinks := .refl _
  grows := List.prefix_append _ _
  silent := iff_of_false (Nat.succ_ne_zero 0) (complain_ne r text)
  removes hzero := absurd hzero (Nat.succ_ne_zero 0)
  succeeds hrefuses hfile := absurd hfile (h hrefuses)
  others _ _ hfind _ := hfind

lemma unlink_eq (h : unlink w k d path = .ok d') : d.unlink path = .ok d' := by
  rw [unlink] at h
  cases hrefuses : w.refuses k with
  | some failure =>
    rw [hrefuses] at h
    cases h
  | none =>
    rw [hrefuses] at h
    exact ok_of_mapError h

lemma removePath_spec (k : ℕ) (path : Bytes) (r : Run) :
    RemoveSpec w k path r (removePath w k path r) := by
  rw [removePath]
  cases hunlink : unlink w k r.disk path with
  | error failure =>
    have hfails : w.refuses k = none → ¬ IsFile r.disk path := by
      intro hrefuses hfile
      obtain ⟨disk, hdisk⟩ := hfile.unlink
      rw [unlink, hrefuses, hdisk] at hunlink
      cases hunlink
    simp only
    split_ifs
    · exact removeSpec_complain _ hfails
    · exact removeSpec_complain _ hfails
  | ok disk =>
    obtain ⟨j, hunlinked⟩ := Disk.unlink_spec (unlink_eq hunlink)
    refine ⟨hunlinked.shrinks, List.prefix_rfl, iff_of_true rfl rfl, fun _ => ?_, fun _ _ => rfl,
      fun other i hother hne => ?_⟩
    · exact ⟨isFile_of_kind hunlinked.found hunlinked.file, hunlinked.gone⟩
    · refine hunlinked.others other i hother ?_
      rintro rfl
      exact hne hunlinked.found

structure RemovesSpec (w : World) (k : ℕ) (paths : List Bytes) (status : ℕ) (r : Run)
    (done : ℕ × Run) : Prop where
  shrinks : r.disk.Shrinks done.2.disk
  grows : r.err <+: done.2.err
  silent : done.1 = 0 ↔ status = 0 ∧ done.2.err = r.err
  removes : done.1 = 0 → ∀ path ∈ paths, IsFile r.disk path ∧ Gone done.2.disk path
  succeeds : ∀ i path, paths[i]? = some path → w.refuses (k + i) = none → IsFile r.disk path →
    Gone done.2.disk path
  others : ∀ other i, r.disk.find other = .ok i → (∀ path ∈ paths, r.disk.find path ≠ .ok i) →
    done.2.disk.find other = .ok i

lemma removeAll_spec (k : ℕ) (paths : List Bytes) (status : ℕ) (r : Run) :
    RemovesSpec w k paths status r (removeAll w k paths status r) := by
  induction paths generalizing k status r with
  | nil =>
    refine ⟨.refl _, List.prefix_rfl, (and_iff_left rfl).symm, ?_, ?_, fun _ _ h _ => h⟩
    · rintro - path ⟨⟩
    · rintro i path ⟨⟩
  | cons path paths ih =>
    have hone := removePath_spec (w := w) k path r
    rw [removeAll]
    generalize removePath w k path r = done at hone ⊢
    obtain ⟨failed, r₁⟩ := done
    have hrest := ih (k + 1) (if failed ≠ 0 then 1 else status) r₁
    simp only
    generalize removeAll w (k + 1) paths (if failed ≠ 0 then 1 else status) r₁ = done at hrest ⊢
    have hzero : done.1 = 0 → failed = 0 ∧ status = 0 := by
      intro h
      have hstatus := (hrest.silent.mp h).1
      split_ifs at hstatus with hfailed
      exact ⟨not_not.mp hfailed, hstatus⟩
    refine ⟨hone.shrinks.trans hrest.shrinks, hone.grows.trans hrest.grows, ⟨fun h => ?_, ?_⟩,
      fun h other hmem => ?_, fun n other hn hrefuses hfile => ?_, fun other i hfind hothers => ?_⟩
    · obtain ⟨hfailed, hstatus⟩ := hzero h
      exact ⟨hstatus, (hrest.silent.mp h).2.trans (hone.silent.mp hfailed)⟩
    · rintro ⟨hstatus, herr⟩
      have hback : r₁.err <+: r.err := herr ▸ hrest.grows
      have hsame : r₁.err = r.err := antisymm hback hone.grows
      refine hrest.silent.mpr ⟨?_, herr.trans hsame.symm⟩
      rw [if_neg (not_not.mpr (hone.silent.mpr hsame))]
      exact hstatus
    · rcases List.mem_cons.mp hmem with rfl | hmem
      · obtain ⟨hfile, hgone⟩ := hone.removes (hzero h).1
        exact ⟨hfile, hgone.shrinks hrest.shrinks⟩
      · obtain ⟨hfile, hgone⟩ := hrest.removes h other hmem
        exact ⟨hfile.of_shrinks hone.shrinks, hgone⟩
    · cases n with
      | zero =>
        obtain rfl : path = other := Option.some.inj hn
        exact (hone.removes (hone.succeeds hrefuses hfile)).2.shrinks hrest.shrinks
      | succ n =>
        rw [← Nat.succ_add_eq_add_succ] at hrefuses
        -- The name is still there at its turn, or an operand before it was the same.
        obtain ⟨i, bytes, hfind, hnode⟩ := hfile
        cases hnow : r₁.disk.find other with
        | error e =>
          have hgone : Gone r₁.disk other := by
            intro i' hi'
            rw [hnow] at hi'
            cases hi'
          exact hgone.shrinks hrest.shrinks
        | ok i' =>
          have hback := hone.shrinks.find hnow
          rw [hfind, Except.ok.injEq] at hback
          subst hback
          exact hrest.succeeds n other hn hrefuses ⟨i, bytes, hnow, hone.shrinks.node_eq ▸ hnode⟩
    · have hfirst := hone.others other i hfind (hothers path List.mem_cons_self)
      refine hrest.others other i hfirst fun path' hmem hfind' => ?_
      exact hothers path' (List.mem_cons_of_mem _ hmem) (hone.shrinks.find hfind')

theorem rm_removes (w : World) (program : Bytes) (args : List Bytes) (d : Disk) :
    d.Shrinks (main w (program :: args) ⟨d, []⟩).2.disk ∧
      ((main w (program :: args) ⟨d, []⟩).1 = 0 ↔ (main w (program :: args) ⟨d, []⟩).2.err = []) ∧
      ((main w (program :: args) ⟨d, []⟩).1 = 0 → args ≠ [] ∧
        ∀ path ∈ args, IsFile d path ∧ Gone (main w (program :: args) ⟨d, []⟩).2.disk path) ∧
      (∀ k path, args[k]? = some path → w.refuses k = none → IsFile d path →
        Gone (main w (program :: args) ⟨d, []⟩).2.disk path) ∧
      ∀ other i, d.find other = .ok i → (∀ path ∈ args, d.find path ≠ .ok i) →
        (main w (program :: args) ⟨d, []⟩).2.disk.find other = .ok i := by
  cases args with
  | nil =>
    refine ⟨.refl d, iff_of_false (Nat.succ_ne_zero 0) (complain_ne _ _),
      fun h => absurd h (Nat.succ_ne_zero 0), ?_, fun _ _ h _ => h⟩
    rintro k path ⟨⟩
  | cons path paths =>
    have hall := removeAll_spec (w := w) 0 (path :: paths) 0 ⟨d, []⟩
    have hmain : main w (program :: path :: paths) ⟨d, []⟩ =
        (if (removeAll w 0 (path :: paths) 0 ⟨d, []⟩).1 = 0 then 0 else 1,
          (removeAll w 0 (path :: paths) 0 ⟨d, []⟩).2) := by
      rw [main, if_neg (by simp)]
      rfl
    rw [hmain]
    generalize removeAll w 0 (path :: paths) 0 ⟨d, []⟩ = done at hall ⊢
    have hzero : (if done.1 = 0 then 0 else 1) = 0 ↔ done.1 = 0 := by
      split_ifs with h
      · exact iff_of_true rfl h
      · exact ⟨False.elim, fun hzero => absurd hzero h⟩
    simp only [hzero]
    refine ⟨hall.shrinks, ?_, fun h => ⟨List.cons_ne_nil _ _, hall.removes h⟩,
      fun k path hk hrefuses => ?_, hall.others⟩
    · rw [hall.silent]
      exact and_iff_right rfl
    · rw [← Nat.zero_add k] at hrefuses
      exact hall.succeeds k path hk hrefuses

def shelf : Disk where
  root := 0
  here := 0
  next := 3
  entry i name :=
    if i = 0 ∧ (name = ascii "a" ∨ name = ascii "b") then some 1
    else if i = 0 ∧ name = ascii "c" then some 2
    else none
  node i := if i = 0 then .directory else .file []
  root_lt := by decide
  here_lt := by decide
  entry_lt i name j h := by
    split_ifs at h <;> cases h <;> decide

def refusingFirst : World := ⟨fun _ => [], fun k => if k = 0 then some ⟨false, []⟩ else none⟩

theorem rm_removes_refused :
    let done := main refusingFirst [ascii "pa2_rm", ascii "a", ascii "b", ascii "c"] ⟨shelf, []⟩
    done.1 = 1 ∧ done.2.disk.find (ascii "a") = .ok 1 ∧ Gone done.2.disk (ascii "b") ∧
      Gone done.2.disk (ascii "c") := by
  intro done
  have hone : IsFile shelf (ascii "b") := ⟨1, [], rfl, rfl⟩
  have hother : IsFile shelf (ascii "c") := ⟨2, [], rfl, rfl⟩
  obtain ⟨-, -, -, hgone, -⟩ := rm_removes refusingFirst (ascii "pa2_rm") [ascii "a", ascii "b", ascii "c"] shelf
  exact ⟨rfl, rfl, hgone 1 _ rfl rfl hone, hgone 2 _ rfl rfl hother⟩

end SystemsLab.Executables.Remove
