import SystemsLab.CLib.Bytes
import SystemsLab.Streams.Segments
import SystemsLab.Tables.Ring

namespace SystemsLab.Executables

open CLib Streams Tables

def newline : UInt8 := 10

def isNewline (c : UInt8) : Bool := c == newline

def lines (s : Bytes) : List Bytes := segments isNewline s

/-- What a stream still gives, and whether the read behind its last byte fails. -/
structure File where
  bytes : Bytes
  broken : Bool

/-- The calls of a run that may fail: `provides` answers a request for memory, `fits` tells
whether standard output takes one more byte, and `reason` is the text of `strerror`. -/
structure World where
  provides : ℕ → Bool
  fits : Bytes → Bool
  reason : Bytes

structure Printed where
  out : Bytes
  err : Bytes
  status : ℕ
deriving DecidableEq

def writeError (program : Bytes) (w : World) : Bytes :=
  program ++ ascii ": write error: " ++ w.reason ++ [newline]

def readError (program : Bytes) (w : World) (label : Bytes) : Bytes :=
  program ++ ascii ": error reading '" ++ label ++ ascii "': " ++ w.reason ++ [newline]

variable (w : World) (lineCount : ℕ)

inductive Copied
  | stopped
  | atEnd
  | refused
deriving DecidableEq

/-- The loop of `print_head`, one `fgetc` and one `fputc` a round. -/
def copyLines : Bytes → ℕ → Bytes → Bytes × Copied
  | [], _, out => (out, .atEnd)
  | ch :: rest, printedLines, out =>
    if w.fits (out ++ [ch]) then
      if ch = newline then
        if printedLines + 1 ≥ lineCount then (out ++ [ch], .stopped)
        else copyLines rest (printedLines + 1) (out ++ [ch])
      else copyLines rest printedLines (out ++ [ch])
    else (out, .refused)

def printHead (fp : File) (label : Bytes) : Printed :=
  if lineCount = 0 then ⟨[], [], 0⟩
  else
    match copyLines w lineCount fp.bytes 0 [] with
    | (out, .refused) => ⟨out, writeError (ascii "pa2_head") w, 1⟩
    | (out, .stopped) => ⟨out, [], 0⟩
    | (out, .atEnd) =>
      if fp.broken then ⟨out, readError (ascii "pa2_head") w label, 1⟩ else ⟨out, [], 0⟩

/-- A line and the text behind it. There is none at the end of the stream, and none where the
memory for the line and its NUL is missing. -/
def getline (s : Bytes) : Option (Bytes × Bytes) :=
  let length := (s.takeWhile (!isNewline ·)).length + 1
  if s = [] then none
  else if w.provides ((s.take length).length + 1) then some (s.take length, s.drop length)
  else none

variable {w lineCount}

lemma getline_eq_some {s line rest : Bytes} (h : getline w s = some (line, rest)) :
    s ≠ [] ∧ lines s = line :: lines rest ∧ rest.length < s.length := by
  simp only [getline] at h
  split_ifs at h with hne hroom
  simp only [Option.some.injEq, Prod.mk.injEq] at h
  obtain ⟨rfl, rfl⟩ := h
  have hpos := List.length_pos_iff.mpr hne
  refine ⟨hne, segments_split hne, ?_⟩
  rw [List.length_drop]
  omega

variable (w lineCount)

/-- The reading loop of `print_tail`: the lines in their slots, how many they were, and what is
left of the stream. -/
def readLines (s : Bytes) (slots : ℕ → Bytes) (totalLines : ℕ) : (ℕ → Bytes) × ℕ × Bytes :=
  match h : getline w s with
  | none => (slots, totalLines, s)
  | some (line, rest) =>
    readLines rest (Function.update slots (totalLines % lineCount) line) (totalLines + 1)
termination_by s.length
decreasing_by exact (getline_eq_some h).2.2

/-- `fwrite` as one `fputc` a byte: the output, and how many bytes it took. -/
def fwrite : Bytes → Bytes → Bytes × ℕ
  | [], out => (out, 0)
  | c :: data, out =>
    if w.fits (out ++ [c]) then
      let (out', count) := fwrite data (out ++ [c])
      (out', count + 1)
    else (out, 0)

/-- The writing loop of `print_tail`, and whether it went to its end. -/
def writeLines (slots : ℕ → Bytes) (start : ℕ) : List ℕ → Bytes → Bytes × Bool
  | [], out => (out, true)
  | i :: is, out =>
    let line := slots ((start + i) % lineCount)
    let (out', count) := fwrite w line out
    if count ≠ line.length then (out', false) else writeLines slots start is out'

def printTail (fp : File) (label : Bytes) : Printed :=
  if lineCount = 0 then ⟨[], [], 0⟩
  else if !w.provides (8 * lineCount) then ⟨[], ascii "pa2_tail: " ++ w.reason ++ [newline], 1⟩
  else
    let (slots, totalLines, rest) := readLines w lineCount fp.bytes (fun _ => []) 0
    if rest = [] ∧ fp.broken then ⟨[], readError (ascii "pa2_tail") w label, 1⟩
    else
      let used := if totalLines < lineCount then totalLines else lineCount
      let start := if totalLines < lineCount then 0 else totalLines % lineCount
      match writeLines w lineCount slots start (List.range used) [] with
      | (out, true) => ⟨out, [], 0⟩
      | (out, false) => ⟨out, writeError (ascii "pa2_tail") w, 1⟩

variable {w lineCount} {s out label : Bytes} {slots : ℕ → Bytes}

lemma lines_newline : lines (newline :: s) = [newline] :: lines s := segments_end rfl

lemma lines_inside {ch : UInt8} (h : ch ≠ newline) :
    lines (ch :: s) = (ch :: (lines s).headD []) :: (lines s).tail :=
  segments_inside (beq_eq_false_iff_ne.mpr h)

lemma flatten_take_inside {ch : UInt8} (h : ch ≠ newline) (n : ℕ) :
    ((lines (ch :: s)).take (n + 1)).flatten = ch :: ((lines s).take (n + 1)).flatten := by
  rw [lines_inside h, List.take_succ_cons, List.flatten_cons, List.cons_append]
  congr 1
  cases lines s with
  | nil => simp
  | cons line more => simp

section Writes

variable (hfits : ∀ out, w.fits out = true)

include hfits

lemma copyLines_eq (out : Bytes) {printedLines : ℕ} (h : printedLines < lineCount) :
    (copyLines w lineCount s printedLines out).1 =
        out ++ ((lines s).take (lineCount - printedLines)).flatten ∧
      (copyLines w lineCount s printedLines out).2 ≠ .refused := by
  induction s generalizing out printedLines with
  | nil => simp [copyLines, lines, segments]
  | cons ch rest ih =>
    obtain ⟨left, hleft⟩ : ∃ left, lineCount - printedLines = left + 1 :=
      ⟨lineCount - printedLines - 1, by omega⟩
    rw [copyLines, if_pos (hfits _), hleft]
    by_cases hch : ch = newline
    · subst hch
      rw [if_pos rfl, lines_newline, List.take_succ_cons, List.flatten_cons, ← List.append_assoc]
      split_ifs with hlast
      · have hzero : left = 0 := by omega
        subst hzero
        simp
      · have hnext : lineCount - (printedLines + 1) = left := by omega
        rw [← hnext]
        exact ih _ (by omega)
    · rw [if_neg hch, flatten_take_inside hch, ← hleft]
      have hrest := ih (out ++ [ch]) h
      rwa [List.append_assoc, List.singleton_append] at hrest

lemma printHead_eq :
    printHead w lineCount ⟨s, false⟩ label = ⟨((lines s).take lineCount).flatten, [], 0⟩ := by
  rw [printHead]
  rcases Nat.eq_zero_or_pos lineCount with rfl | hpos
  · simp
  · rw [if_neg (by omega)]
    obtain ⟨hout, hend⟩ := copyLines_eq hfits (s := s) [] hpos
    rw [Nat.sub_zero, List.nil_append] at hout
    rw [← hout]
    cases hcopy : copyLines w lineCount s 0 [] with
    | mk out copied =>
      cases copied with
      | stopped => rfl
      | atEnd => rfl
      | refused => exact absurd (by rw [hcopy]) hend

lemma fwrite_eq (data : Bytes) : fwrite w data out = (out ++ data, data.length) := by
  induction data generalizing out with
  | nil => simp [fwrite]
  | cons c data ih => simp [fwrite, hfits, ih]

lemma writeLines_eq (start : ℕ) (is : List ℕ) :
    writeLines w lineCount slots start is out =
      (out ++ (is.map fun i => slots ((start + i) % lineCount)).flatten, true) := by
  induction is generalizing out with
  | nil => simp [writeLines]
  | cons i is ih => simp [writeLines, fwrite_eq hfits, ih]

end Writes

lemma getline_provided (hline : ∀ line ∈ lines s, w.provides (line.length + 1) = true)
    (hne : s ≠ []) : ∃ line rest, getline w s = some (line, rest) := by
  have hroom := hline _ (by rw [lines, segments_split hne]; exact List.mem_cons_self)
  rw [getline, if_neg hne]
  exact ⟨_, _, if_pos hroom⟩

lemma readLines_eq (hline : ∀ line ∈ lines s, w.provides (line.length + 1) = true)
    {before : List Bytes} (hslots : HoldsLast lineCount slots before) :
    ∃ slots', readLines w lineCount s slots before.length =
        (slots', (before ++ lines s).length, []) ∧
      HoldsLast lineCount slots' (before ++ lines s) := by
  induction hlen : s.length using Nat.strong_induction_on generalizing s slots before with
  | _ len ih =>
    rw [readLines]
    rcases eq_or_ne s [] with rfl | hne
    · refine ⟨slots, ?_, ?_⟩
      · simp [getline, lines, segments]
      · simpa [lines, segments] using hslots
    · obtain ⟨line, rest, hget⟩ := getline_provided hline hne
      obtain ⟨-, hlines, hshort⟩ := getline_eq_some hget
      have hrest : ∀ line ∈ lines rest, w.provides (line.length + 1) = true := by
        intro line' hmem
        exact hline line' (hlines ▸ List.mem_cons_of_mem line hmem)
      obtain ⟨slots', hread, hholds⟩ := ih rest.length (hlen ▸ hshort) hrest (hslots.put line) rfl
      rw [List.append_assoc, List.singleton_append, ← hlines] at hread hholds
      rw [List.length_append, List.length_singleton] at hread
      refine ⟨slots', ?_, hholds⟩
      split
      · next hnone => exact absurd (hnone ▸ hget) (by simp)
      · next line' rest' hsome =>
        rw [hget] at hsome
        simp only [Option.some.injEq, Prod.mk.injEq] at hsome
        obtain ⟨rfl, rfl⟩ := hsome
        exact hread

lemma printTail_eq (hfits : ∀ out, w.fits out = true) (hslots : w.provides (8 * lineCount) = true)
    (hline : ∀ line ∈ lines s, w.provides (line.length + 1) = true) :
    printTail w lineCount ⟨s, false⟩ label =
      ⟨((lines s).drop ((lines s).length - lineCount)).flatten, [], 0⟩ := by
  rw [printTail]
  rcases Nat.eq_zero_or_pos lineCount with rfl | hpos
  · simp
  · rw [if_neg (by omega), if_neg (by simp [hslots])]
    obtain ⟨slots, hread, hholds⟩ := readLines_eq hline (HoldsLast.nil lineCount fun _ => [])
    rw [List.length_nil] at hread
    simp only [hread, List.nil_append, writeLines_eq hfits]
    rw [if_neg (by simp)]
    rw [List.nil_append] at hholds
    rw [hholds.read rfl rfl]

variable (w s label) in
theorem head_tail_complement (hfits : ∀ out, w.fits out = true)
    (hline : ∀ line ∈ lines s, w.provides (line.length + 1) = true) :
    (∀ n, printHead w n ⟨s, false⟩ label =
      ⟨((lines s).take (min n (lines s).length)).flatten, [], 0⟩) ∧
    (∀ n, w.provides (8 * n) = true → printTail w n ⟨s, false⟩ label =
      ⟨((lines s).drop ((lines s).length - min n (lines s).length)).flatten, [], 0⟩) ∧
    ∀ k ≤ (lines s).length, w.provides (8 * ((lines s).length - k)) = true →
      (printHead w k ⟨s, false⟩ label).out ++
        (printTail w ((lines s).length - k) ⟨s, false⟩ label).out = s := by
  refine ⟨fun n => ?_, fun n hn => ?_, fun k hk hn => ?_⟩
  · rw [printHead_eq hfits, ← List.take_eq_take_min]
  · have hmin : (lines s).length - min n (lines s).length = (lines s).length - n := by omega
    rw [printTail_eq hfits hn hline, hmin]
  · have hcut : (lines s).length - ((lines s).length - k) = k := by omega
    rw [printHead_eq hfits, printTail_eq hfits hn hline, hcut, ← List.flatten_append,
      List.take_append_drop]
    exact flatten_segments isNewline s

theorem head_tail_unterminated :
    (printHead ⟨fun _ => true, fun _ => true, []⟩ 2 ⟨ascii "a\nbc\nd", false⟩ []).out ++
      (printTail ⟨fun _ => true, fun _ => true, []⟩ 1 ⟨ascii "a\nbc\nd", false⟩ []).out =
        ascii "a\nbc\nd" :=
  (head_tail_complement ⟨fun _ => true, fun _ => true, []⟩ (ascii "a\nbc\nd") [] (fun _ => rfl)
    (fun _ _ => rfl)).2.2 2 (by decide) rfl

end SystemsLab.Executables
