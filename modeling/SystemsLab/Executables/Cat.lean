import SystemsLab.Executables.HeadTail
import SystemsLab.Streams.Relay

namespace SystemsLab.Executables.Cat

open CLib Streams

def bufferSize : ℕ := 8192

/-- What `stat` and `open` tell of a path, and what is read from it. -/
structure Found where
  isDirectory : Bool
  openError : Option Bytes
  bytes : Bytes

/-- `reads` are the answers of `read` to each operand, `reason` is the text of `strerror` behind a
`read` or `write` that fails. -/
structure World where
  look : Bytes → Found
  reads : ℕ → List Answer
  reason : Bytes

structure Run where
  stdin : Bytes
  writes : List Answer
  out : Bytes
  err : Bytes

def dash : Bytes := ascii "-"

def complaint (label reason : Bytes) : Bytes :=
  ascii "pa2_cat: " ++ label ++ ascii ": " ++ reason ++ [newline]

namespace Run

def complain (r : Run) (label reason : Bytes) : Run := { r with err := r.err ++ complaint label reason }

end Run

/-- A `read` is not called again, a `write` that takes nothing is. -/
def readRetries : Retries := ⟨false, true⟩

def writeRetries : Retries := ⟨false, true⟩

variable (w : World)

/-- `copy_fd`: its status, what is left of the source, and the run. -/
def copyFd (reads : List Answer) (label src : Bytes) (r : Run) : ℕ × Bytes × Run :=
  let copied := relay (.plain UInt8) readRetries writeRetries bufferSize reads r.writes () src
  let r := { r with out := r.out ++ copied.out, writes := copied.writes }
  match copied.ending with
  | .atEnd => (0, copied.rest, r)
  | .readFailed => (1, copied.rest, r.complain label w.reason)
  | .writeFailed => (1, copied.rest, r.complain (ascii "write error") w.reason)

def catPath (reads : List Answer) (path : Bytes) (r : Run) : ℕ × Run :=
  if path = dash then
    let (status, rest, r) := copyFd w reads dash r.stdin r
    (status, { r with stdin := rest })
  else if (w.look path).isDirectory then (1, r.complain path (ascii "Is a directory"))
  else
    match (w.look path).openError with
    | some reason => (1, r.complain path reason)
    | none =>
      let (status, _, r) := copyFd w reads path (w.look path).bytes r
      (status, r)

/-- The loop of `main`. -/
def catPaths (i : ℕ) : List Bytes → ℕ → Run → ℕ × Run
  | [], status, r => (status, r)
  | path :: paths, status, r =>
    let (failed, r) := catPath w (w.reads i) path r
    catPaths (i + 1) paths (if failed ≠ 0 then 1 else status) r

def main (argv : List Bytes) (r : Run) : ℕ × Run :=
  if argv.length = 1 then
    let (failed, rest, r) := copyFd w (w.reads 0) dash r.stdin r
    (if failed = 0 then 0 else 1, { r with stdin := rest })
  else
    let (status, r) := catPaths w 0 (argv.drop 1) 0 r
    (if status = 0 then 0 else 1, r)

def operands (argv : List Bytes) : List Bytes := if argv.length = 1 then [dash] else argv.drop 1

def trouble (path : Bytes) : Option Bytes :=
  if path = dash then none
  else if (w.look path).isDirectory then some (ascii "Is a directory")
  else (w.look path).openError

def complaints (paths : List Bytes) : Bytes :=
  paths.flatMap fun path => ((trouble w path).map (complaint path)).getD []

def textOf (stdin path : Bytes) : Bytes :=
  if path = dash then stdin else if trouble w path = none then (w.look path).bytes else []

/-- The texts of the operands. The first `-` is all of the standard input. -/
def concatenation : Bytes → List Bytes → Bytes
  | _, [] => []
  | stdin, path :: paths =>
    textOf w stdin path ++ concatenation (if path = dash then [] else stdin) paths

variable {w} {reads : List Answer} {label path src : Bytes} {paths : List Bytes} {r r' : Run} {status i : ℕ}
  {rest stdin : Bytes}

lemma complaint_ne_nil (label reason : Bytes) : complaint label reason ≠ [] := by
  rw [complaint]
  simp

structure CopySpec (reads : List Answer) (src : Bytes) (r : Run) (copied : ℕ × Bytes × Run) : Prop where
  stdin_eq : copied.2.2.stdin = r.stdin
  suffix : copied.2.2.writes <:+ r.writes
  honest : (copied.1 = 0 ∧ copied.2.1 = [] ∧ copied.2.2.out = r.out ++ src ∧ copied.2.2.err = r.err) ∨
    (copied.1 ≠ 0 ∧ copied.2.2.err ≠ r.err ∧ r.err <+: copied.2.2.err)
  succeeds : Harmless readRetries reads → Harmless writeRetries r.writes → copied.1 = 0

lemma copyFd_spec (reads : List Answer) (label src : Bytes) (r : Run) :
    CopySpec reads src r (copyFd w reads label src r) := by
  have hsize : 0 < bufferSize := by decide
  have hspec := relay_spec (.plain UInt8) readRetries writeRetries hsize reads r.writes () src
  have hout := hspec.out_eq
  have hrest := hspec.rest_eq
  have hsuffix := hspec.suffix
  have hsucceeds := hspec.succeeds
  rw [Machine.text_plain] at hout
  rw [copyFd]
  generalize relay (.plain UInt8) readRetries writeRetries bufferSize reads r.writes () src = copied
    at hout hrest hsuffix hsucceeds ⊢
  obtain ⟨out, ending, state, rest, writes⟩ := copied
  cases ending with
  | atEnd => exact ⟨rfl, hsuffix, Or.inl ⟨rfl, hrest rfl, congrArg (r.out ++ ·) (hout rfl), rfl⟩, fun _ _ => rfl⟩
  | readFailed =>
    refine ⟨rfl, hsuffix, Or.inr ⟨Nat.succ_ne_zero 0, ?_, List.prefix_append _ _⟩, fun hreads hwrites => ?_⟩
    · exact fun h => complaint_ne_nil _ _ (List.append_right_eq_self.mp h)
    · cases hsucceeds hreads hwrites
  | writeFailed =>
    refine ⟨rfl, hsuffix, Or.inr ⟨Nat.succ_ne_zero 0, ?_, List.prefix_append _ _⟩, fun hreads hwrites => ?_⟩
    · exact fun h => complaint_ne_nil _ _ (List.append_right_eq_self.mp h)
    · cases hsucceeds hreads hwrites

structure PathSpec (w : World) (reads : List Answer) (path : Bytes) (r : Run) (done : ℕ × Run) : Prop where
  suffix : done.2.writes <:+ r.writes
  grows : r.err <+: done.2.err
  silent : done.1 = 0 ↔ done.2.err = r.err
  honest : done.1 = 0 →
    done.2.out = r.out ++ textOf w r.stdin path ∧ done.2.stdin = if path = dash then [] else r.stdin
  harmless : Harmless readRetries reads → Harmless writeRetries r.writes →
    done.2.out = r.out ++ textOf w r.stdin path ∧ (done.2.stdin = if path = dash then [] else r.stdin) ∧
      done.2.err = r.err ++ ((trouble w path).map (complaint path)).getD []

lemma catPath_copies (hcopied : CopySpec reads src r (status, rest, r'))
    (htrouble : trouble w path = none) (htext : textOf w r.stdin path = src)
    (hstdin : status = 0 → stdin = if path = dash then [] else r.stdin) :
    PathSpec w reads path r (status, { r' with stdin := stdin }) := by
  have hsilent : status = 0 ↔ r'.err = r.err := by
    rcases hcopied.honest with ⟨hzero, -, -, herr⟩ | ⟨hone, herr, -⟩
    · exact ⟨fun _ => herr, fun _ => hzero⟩
    · exact ⟨fun hzero => absurd hzero hone, fun heq => absurd heq herr⟩
  have hgrows : r.err <+: r'.err := by
    rcases hcopied.honest with ⟨-, -, -, herr⟩ | ⟨-, -, hgrows⟩
    · exact herr ▸ List.prefix_rfl
    · exact hgrows
  have hout : status = 0 → r'.out = r.out ++ textOf w r.stdin path := by
    intro hstatus
    rcases hcopied.honest with ⟨-, -, hout, -⟩ | ⟨hone, -, -⟩
    · rw [htext]
      exact hout
    · exact absurd hstatus hone
  refine ⟨hcopied.suffix, hgrows, hsilent, fun h => ⟨hout h, hstdin h⟩, fun hreads hwrites => ?_⟩
  have hzero := hcopied.succeeds hreads hwrites
  refine ⟨hout hzero, hstdin hzero, ?_⟩
  rw [htrouble]
  exact (hsilent.mp hzero).trans (List.append_nil _).symm

lemma catPath_refuses {reason : Bytes} (htrouble : trouble w path = some reason) :
    PathSpec w reads path r (1, r.complain path reason) := by
  have hdash : path ≠ dash := by
    intro h
    rw [trouble, if_pos h] at htrouble
    cases htrouble
  have htext : textOf w r.stdin path = [] := by
    rw [textOf, if_neg hdash, htrouble, if_neg (Option.some_ne_none reason)]
  have herr : r.err ++ complaint path reason ≠ r.err :=
    fun h => complaint_ne_nil _ _ (List.append_right_eq_self.mp h)
  refine ⟨List.suffix_rfl, List.prefix_append _ _, ⟨fun h => absurd h (Nat.succ_ne_zero 0),
    fun h => absurd h herr⟩, fun h => absurd h (Nat.succ_ne_zero 0), fun _ _ => ⟨?_, ?_, ?_⟩⟩
  · rw [htext, List.append_nil]
    rfl
  · exact (if_neg hdash).symm
  · rw [htrouble]
    rfl

lemma catPath_spec (reads : List Answer) (path : Bytes) (r : Run) :
    PathSpec w reads path r (catPath w reads path r) := by
  rw [catPath]
  split_ifs with hdash hdirectory
  · have hcopied := copyFd_spec (w := w) reads dash r.stdin r
    generalize copyFd w reads dash r.stdin r = copied at hcopied ⊢
    obtain ⟨status, rest, r'⟩ := copied
    refine catPath_copies hcopied (if_pos hdash) (if_pos hdash) fun hstatus => ?_
    rw [if_pos hdash]
    rcases hcopied.honest with ⟨-, hrest, -, -⟩ | ⟨hone, -, -⟩
    · exact hrest
    · exact absurd hstatus hone
  · exact catPath_refuses (by rw [trouble, if_neg hdash, if_pos hdirectory])
  · have htrouble : trouble w path = (w.look path).openError := by
      rw [trouble, if_neg hdash, if_neg hdirectory]
    cases herror : (w.look path).openError with
    | some reason => exact catPath_refuses (htrouble.trans herror)
    | none =>
      have hcopied := copyFd_spec (w := w) reads path (w.look path).bytes r
      simp only
      generalize copyFd w reads path (w.look path).bytes r = copied at hcopied ⊢
      obtain ⟨status, rest, r'⟩ := copied
      refine catPath_copies hcopied (htrouble.trans herror) ?_ fun _ => ?_
      · rw [textOf, if_neg hdash, if_pos (htrouble.trans herror)]
      · rw [if_neg hdash]
        exact hcopied.stdin_eq

lemma catPaths_spec (paths : List Bytes) (i status : ℕ) (r : Run) :
    r.err <+: (catPaths w i paths status r).2.err ∧
      ((catPaths w i paths status r).1 = 0 ↔
        status = 0 ∧ (catPaths w i paths status r).2.err = r.err) ∧
      ((catPaths w i paths status r).1 = 0 →
        (catPaths w i paths status r).2.out = r.out ++ concatenation w r.stdin paths) ∧
      ((∀ k, Harmless readRetries (w.reads k)) → Harmless writeRetries r.writes →
        (catPaths w i paths status r).2.out = r.out ++ concatenation w r.stdin paths ∧
          (catPaths w i paths status r).2.err = r.err ++ complaints w paths) := by
  induction paths generalizing i status r with
  | nil =>
    refine ⟨List.prefix_rfl, (and_iff_left rfl).symm, fun _ => (List.append_nil _).symm, fun _ _ => ?_⟩
    exact ⟨(List.append_nil _).symm, (List.append_nil _).symm⟩
  | cons path paths ih =>
    have hpath := catPath_spec (w := w) (w.reads i) path r
    rw [catPaths]
    generalize catPath w (w.reads i) path r = done at hpath ⊢
    obtain ⟨failed, r'⟩ := done
    obtain ⟨hgrows, hstatus, hout, hharmless⟩ := ih (i + 1) (if failed ≠ 0 then 1 else status) r'
    refine ⟨hpath.grows.trans hgrows, ?_, fun hzero => ?_, fun hreads hwrites => ?_⟩
    · rw [hstatus]
      constructor
      · rintro ⟨hboth, herr⟩
        split_ifs at hboth with hfailed
        exact ⟨hboth, herr.trans (hpath.silent.mp (not_not.mp hfailed))⟩
      · rintro ⟨hzero, herr⟩
        have hback : r'.err <+: r.err := herr ▸ hgrows
        have hsame : r'.err = r.err := hback.eq_of_length_le hpath.grows.length_le
        refine ⟨?_, herr.trans hsame.symm⟩
        rw [if_neg (not_not.mpr (hpath.silent.mpr hsame))]
        exact hzero
    · have hboth := (hstatus.mp hzero).1
      split_ifs at hboth with hfailed
      obtain ⟨hfirst, hstdin⟩ := hpath.honest (not_not.mp hfailed)
      rw [hout hzero, hfirst, hstdin, List.append_assoc]
      rfl
    · obtain ⟨hfirst, hstdin, herr⟩ := hpath.harmless (hreads i) hwrites
      obtain ⟨hout', herr'⟩ := hharmless hreads (hwrites.of_suffix hpath.suffix)
      rw [hout', herr', hfirst, hstdin, herr, List.append_assoc, List.append_assoc]
      exact ⟨rfl, rfl⟩

lemma catPaths_le_one (hstatus : status ≤ 1) : (catPaths w i paths status r).1 ≤ 1 := by
  induction paths generalizing i status r with
  | nil => exact hstatus
  | cons path paths ih =>
    rw [catPaths]
    generalize catPath w (w.reads i) path r = done
    obtain ⟨failed, r'⟩ := done
    apply ih
    split_ifs
    · exact le_rfl
    · exact hstatus

lemma main_eq (program : Bytes) (args : List Bytes) (r : Run) :
    main w (program :: args) r = catPaths w 0 (operands (program :: args)) 0 r := by
  rw [main, operands]
  cases args with
  | nil =>
    rw [if_pos List.length_singleton, if_pos List.length_singleton, catPaths, catPath, if_pos rfl]
    generalize copyFd w (w.reads 0) dash r.stdin r = copied
    obtain ⟨failed, rest, r'⟩ := copied
    by_cases hfailed : failed = 0
    · simp only [hfailed, ne_eq, not_true_eq_false, if_true, if_false, catPaths]
    · simp only [hfailed, ne_eq, not_false_eq_true, if_true, if_false, catPaths]
  | cons arg args =>
    rw [if_neg (by simp), if_neg (by simp)]
    have hle : (catPaths w 0 (arg :: args) 0 r).1 ≤ 1 := catPaths_le_one (Nat.zero_le 1)
    change (if (catPaths w 0 (arg :: args) 0 r).1 = 0 then 0 else 1, (catPaths w 0 (arg :: args) 0 r).2) =
      catPaths w 0 (arg :: args) 0 r
    refine Prod.ext ?_ rfl
    dsimp only
    split_ifs with hzero
    · exact hzero.symm
    · omega

theorem cat_concatenates (w : World) (program stdin : Bytes) (args : List Bytes) (writes : List Answer) :
    ((main w (program :: args) ⟨stdin, writes, [], []⟩).1 = 0 ↔
        (main w (program :: args) ⟨stdin, writes, [], []⟩).2.err = []) ∧
      ((main w (program :: args) ⟨stdin, writes, [], []⟩).1 = 0 →
        (main w (program :: args) ⟨stdin, writes, [], []⟩).2.out =
          concatenation w stdin (operands (program :: args))) ∧
      ((∀ i, Harmless readRetries (w.reads i)) → Harmless writeRetries writes →
        (main w (program :: args) ⟨stdin, writes, [], []⟩).2.out =
            concatenation w stdin (operands (program :: args)) ∧
          (main w (program :: args) ⟨stdin, writes, [], []⟩).2.err =
            complaints w (operands (program :: args))) := by
  obtain ⟨-, hstatus, hout, hharmless⟩ :=
    catPaths_spec (w := w) (operands (program :: args)) 0 0 ⟨stdin, writes, [], []⟩
  rw [main_eq]
  refine ⟨?_, hout, hharmless⟩
  rw [hstatus]
  exact and_iff_right rfl

def twoPaths : World where
  look path := ⟨path == ascii "d", none, ascii "abc"⟩
  reads _ := [.upTo 2]
  reason := []

theorem cat_concatenates_short :
    let first := main twoPaths [ascii "pa2_cat", ascii "a", dash] ⟨ascii "in", [.upTo 1, .upTo 0], [], []⟩
    let second := main twoPaths [ascii "pa2_cat", ascii "d", ascii "a"] ⟨[], [.upTo 1], [], []⟩
    (first.2.err = [] ∧ first.2.out = concatenation twoPaths (ascii "in") [ascii "a", dash]) ∧
      second.2.out = concatenation twoPaths [] [ascii "d", ascii "a"] ∧
        second.2.err = complaints twoPaths [ascii "d", ascii "a"] := by
  constructor
  · obtain ⟨hsilent, hout, -⟩ :=
      cat_concatenates twoPaths (ascii "pa2_cat") (ascii "in") [ascii "a", dash] [.upTo 1, .upTo 0]
    have hzero : (main twoPaths [ascii "pa2_cat", ascii "a", dash]
      ⟨ascii "in", [.upTo 1, .upTo 0], [], []⟩).1 = 0 := by decide +kernel
    exact ⟨hsilent.mp hzero, hout hzero⟩
  · have hreads : ∀ i, Harmless readRetries (twoPaths.reads i) :=
      fun _ => (by decide : Harmless readRetries [.upTo 2])
    have hdone := cat_concatenates twoPaths (ascii "pa2_cat") [] [ascii "d", ascii "a"] [.upTo 1]
    exact hdone.2.2 hreads (by decide)

end SystemsLab.Executables.Cat
