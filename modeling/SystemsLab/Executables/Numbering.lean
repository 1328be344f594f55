import SystemsLab.CLib.Decimals
import SystemsLab.Executables.HeadTail
import SystemsLab.Streams.Relay

/-! The program of week 4: it copies a file with the number of each line in front of the line. -/

namespace SystemsLab.Executables.Numbering

open CLib Streams

def batchSize : ℕ := 4028

/-- The loop of `to_string`: `i` cells of the array are left. It gives the place of the text. -/
def toStringFrom : ℕ → UInt64 → Bytes → ℕ × Bytes
  | 0, _, array => (0, array)
  | i + 1, integer, array =>
    let array := array.set i (UInt8.ofNat ((integer % 10).toNat + 48))
    if integer / 10 = 0 then (i, array) else toStringFrom i (integer / 10) array

def toString (integer : UInt64) (array : Bytes) : ℕ × Bytes :=
  toStringFrom 20 integer (array.set 20 0)

/-- The variables of the copy loop, and the array of `to_string`. -/
structure Position where
  lineNumber : UInt64
  atLineStart : Bool
  array : Bytes

def writeLinePrefix (lineNumber : UInt64) (array : Bytes) : List Bytes × Bytes :=
  let (i, array) := toString lineNumber array
  ([cstr (array.drop i), ascii " | "], array)

def putByte (s : Position) (b : UInt8) : List Bytes × Position :=
  let (pieces, array) := if s.atLineStart then writeLinePrefix s.lineNumber s.array else ([], s.array)
  (pieces ++ [[b]],
    if b = newline then ⟨s.lineNumber + 1, true, array⟩ else ⟨s.lineNumber, false, array⟩)

def putBytes (s : Position) : Bytes → List Bytes × Position
  | [] => ([], s)
  | b :: chunk =>
    let (pieces, s) := putByte s b
    let (more, s) := putBytes s chunk
    (pieces ++ more, s)

lemma putBytes_append (s : Position) (a b : Bytes) : putBytes s (a ++ b) =
    ((putBytes s a).1 ++ (putBytes (putBytes s a).2 b).1, (putBytes (putBytes s a).2 b).2) := by
  induction a generalizing s with
  | nil => rfl
  | cons c a ih =>
    simp only [List.cons_append, putBytes, ih, List.append_assoc]

def machine : Machine UInt8 Position where
  step := putBytes
  step_nil _ := rfl
  flatten_append s a b := by rw [putBytes_append, List.flatten_append]
  state_append s a b := by rw [putBytes_append]

def getOutputFilename (inputFilename : Bytes) : Bytes := inputFilename ++ ascii ".no"

/-- The file that is read, and how the calls of a run end. `array` is what the array of `to_string`
holds. -/
structure World where
  input : Bytes
  inputOpens : Bool
  outputOpens : Bool
  reads : List Answer
  writes : List Answer
  array : Bytes

structure Numbered where
  file : Option (Bytes × Bytes)
  out : Bytes
  status : ℕ

def main (w : World) (argv : List Bytes) : Numbered :=
  match argv[1]? with
  | none => ⟨none, ascii "argument error\n", 1⟩
  | some inputFilename =>
    if !w.inputOpens then ⟨none, ascii "input open error\n", 1⟩
    else if !w.outputOpens then ⟨none, ascii "output open error\n", 1⟩
    else
      let copied := relay machine ⟨false, false⟩ ⟨false, false⟩ batchSize w.reads w.writes
        ⟨1, true, w.array⟩ w.input
      let file := some (getOutputFilename inputFilename, copied.out)
      match copied.ending with
      | .atEnd => ⟨file, [], 0⟩
      | _ => ⟨file, ascii "copy error\n", 1⟩

section ToString

variable {i : ℕ} {integer : UInt64} {array : Bytes}

lemma digit_toNat (integer : UInt64) : UInt8.ofNat ((integer % 10).toNat + 48) = digit integer.toNat := by
  rw [UInt64.toNat_mod, digit, Nat.add_comm]
  rfl

lemma toNat_quotient (integer : UInt64) : (integer / 10).toNat = integer.toNat / 10 := by
  rw [UInt64.toNat_div]
  rfl

lemma quotient_eq_zero : integer / 10 = 0 ↔ integer.toNat < 10 := by
  rw [← UInt64.toNat_inj, toNat_quotient]
  change integer.toNat / 10 = 0 ↔ _
  omega

lemma drop_set (c : UInt8) (hroom : i < array.length) :
    (array.set i c).drop i = c :: array.drop (i + 1) := by
  have hlen : i < (array.set i c).length := by rwa [List.length_set]
  rw [List.drop_eq_getElem_cons hlen, List.getElem_set_self, List.drop_set_of_lt (Nat.lt_succ_self i)]

lemma toStringFrom_spec (hsmall : integer.toNat < 10 ^ (i + 1)) (hroom : i < array.length) :
    (toStringFrom (i + 1) integer array).2.drop (toStringFrom (i + 1) integer array).1 =
        decimal integer.toNat ++ array.drop (i + 1) ∧
      (toStringFrom (i + 1) integer array).2.length = array.length := by
  induction i generalizing integer array with
  | zero =>
    have hone : integer.toNat < 10 := hsmall
    rw [toStringFrom, digit_toNat, if_pos (quotient_eq_zero.mpr hone), decimal_small hone]
    exact ⟨drop_set _ hroom, List.length_set⟩
  | succ i ih =>
    have hset := drop_set (digit integer.toNat) hroom
    rw [toStringFrom, digit_toNat]
    by_cases hone : integer.toNat < 10
    · rw [if_pos (quotient_eq_zero.mpr hone), decimal_small hone]
      exact ⟨hset, List.length_set⟩
    · have hquotient : (integer / 10).toNat < 10 ^ (i + 1) := by
        rw [toNat_quotient, Nat.div_lt_iff_lt_mul (by decide)]
        rwa [Nat.pow_succ] at hsmall
      have hlen : i < (array.set (i + 1) (digit integer.toNat)).length := by
        rw [List.length_set]
        omega
      obtain ⟨htext, hkeeps⟩ := ih hquotient hlen
      rw [if_neg (mt quotient_eq_zero.mp hone)]
      refine ⟨?_, hkeeps.trans List.length_set⟩
      rw [htext, hset, toNat_quotient, decimal_big hone, List.append_assoc, List.singleton_append]

lemma noNul_decimal (n : ℕ) : 0 ∉ decimal n := fun h => absurd ((digits_decimal n).isDigit 0 h) (by decide)

lemma toString_spec (integer : UInt64) (harray : array.length = 21) :
    cstr ((toString integer array).2.drop (toString integer array).1) = decimal integer.toNat ∧
      (toString integer array).2.length = 21 := by
  have hsmall : integer.toNat < 10 ^ 20 := integer.toNat_lt.trans (by decide)
  have hroom : 19 < (array.set 20 0).length := by
    rw [List.length_set, harray]
    decide
  obtain ⟨htext, hlen⟩ := toStringFrom_spec hsmall hroom
  rw [toString, htext, hlen, List.length_set]
  have hend : (array.set 20 0).drop 20 = [0] := by
    rw [drop_set 0 (by rw [harray]; decide), List.drop_eq_nil_of_le harray.le]
  rw [hend]
  exact ⟨cstr_append_nul (noNul_decimal _) [], harray⟩

end ToString

def numberFrom (n : ℕ) (input : List Bytes) : List Bytes :=
  input.mapIdx fun i line => decimal (n + i) ++ ascii " | " ++ line

def numberedLines (input : Bytes) : List Bytes := numberFrom 1 (lines input)

def insideLine (n : ℕ) : List Bytes → List Bytes
  | [] => []
  | line :: more => line :: numberFrom (n + 1) more

section Lines

variable {n : ℕ} {line : Bytes} {more : List Bytes} {s : Position} {src : Bytes}

lemma numberFrom_cons : numberFrom n (line :: more) =
    (decimal n ++ ascii " | " ++ line) :: numberFrom (n + 1) more := by
  rw [numberFrom, List.mapIdx_cons, numberFrom]
  simp only [Nat.add_zero, Nat.add_assoc, Nat.add_comm 1]

lemma flatten_numberFrom_cons : (numberFrom n (line :: more)).flatten =
    decimal n ++ ascii " | " ++ (insideLine n (line :: more)).flatten := by
  rw [numberFrom_cons, List.flatten_cons, insideLine, List.flatten_cons, List.append_assoc]

lemma lines_newline (src : Bytes) : lines (newline :: src) = [newline] :: lines src :=
  segments_end rfl

lemma lines_inside {b : UInt8} (hb : b ≠ newline) (src : Bytes) :
    lines (b :: src) = (b :: (lines src).headD []) :: (lines src).tail :=
  segments_inside (beq_eq_false_iff_ne.mpr hb)

lemma flatten_insideLine_cons (n : ℕ) (b : UInt8) (src : Bytes) :
    (insideLine n (lines (b :: src))).flatten =
      b :: (if b = newline then numberFrom (n + 1) (lines src) else insideLine n (lines src)).flatten := by
  by_cases hb : b = newline
  · rw [hb, lines_newline, if_pos rfl]
    rfl
  · rw [lines_inside hb, if_neg hb]
    cases lines src <;> rfl

lemma lines_cons_ne_nil (b : UInt8) (src : Bytes) : lines (b :: src) ≠ [] := by
  rw [lines, segments_split (List.cons_ne_nil b src)]
  exact List.cons_ne_nil _ _

lemma putByte_spec (b : UInt8) (harray : s.array.length = 21) :
    ∃ array, array.length = 21 ∧
      (putByte s b).1.flatten =
        (if s.atLineStart then decimal s.lineNumber.toNat ++ ascii " | " else []) ++ [b] ∧
      (putByte s b).2 =
        if b = newline then ⟨s.lineNumber + 1, true, array⟩ else ⟨s.lineNumber, false, array⟩ := by
  rw [putByte]
  cases s.atLineStart with
  | false => exact ⟨s.array, harray, rfl, rfl⟩
  | true =>
    obtain ⟨htext, hlen⟩ := toString_spec s.lineNumber harray
    refine ⟨(toString s.lineNumber s.array).2, hlen, ?_, rfl⟩
    simp only [if_true, writeLinePrefix, htext, List.flatten_append, List.flatten_cons, List.flatten_nil,
      List.append_nil]

lemma flatten_putBytes (harray : s.array.length = 21) (hnumber : s.lineNumber.toNat + src.length < 2 ^ 64) :
    (putBytes s src).1.flatten =
      if s.atLineStart then (numberFrom s.lineNumber.toNat (lines src)).flatten
      else (insideLine s.lineNumber.toNat (lines src)).flatten := by
  induction src generalizing s with
  | nil =>
    split_ifs <;> rfl
  | cons b src ih =>
    obtain ⟨array, hlen, hbyte, hnext⟩ := putByte_spec b harray
    rw [List.length_cons] at hnumber
    have hbytes : (putBytes s (b :: src)).1.flatten =
        (putByte s b).1.flatten ++ (putBytes (putByte s b).2 src).1.flatten := List.flatten_append
    have hrest : (putBytes (putByte s b).2 src).1.flatten =
        (if b = newline then numberFrom (s.lineNumber.toNat + 1) (lines src)
          else insideLine s.lineNumber.toNat (lines src)).flatten := by
      rw [hnext]
      by_cases hb : b = newline
      · have hone : (s.lineNumber + 1).toNat = s.lineNumber.toNat + 1 := by
          rw [UInt64.toNat_add]
          change (s.lineNumber.toNat + 1) % 2 ^ 64 = _
          rw [Nat.mod_eq_of_lt (by omega)]
        rw [if_pos hb, if_pos hb, ih hlen (by rw [hone]; omega), hone]
        rfl
      · rw [if_neg hb, if_neg hb, ih hlen (by dsimp only; omega)]
        rfl
    have hinside : (insideLine s.lineNumber.toNat (lines (b :: src))).flatten =
        b :: (putBytes (putByte s b).2 src).1.flatten := by rw [flatten_insideLine_cons, hrest]
    rw [hbytes, hbyte]
    cases s.atLineStart with
    | false => exact hinside.symm
    | true =>
      obtain ⟨line, more, hlines⟩ := List.exists_cons_of_ne_nil (lines_cons_ne_nil b src)
      rw [hlines] at hinside ⊢
      rw [if_pos rfl, if_pos rfl, flatten_numberFrom_cons, hinside, List.append_assoc,
        List.singleton_append]

lemma isNewline_bar : (ascii " | ").all (fun c => !isNewline c) = true := by decide

lemma isNewline_lead (n : ℕ) : ∀ c ∈ decimal n ++ ascii " | ", isNewline c = false := by
  intro c hc
  rcases List.mem_append.mp hc with hc | hc
  · cases hnl : isNewline c with
    | false => rfl
    | true =>
      have hdigit := (digits_decimal n).isDigit c hc
      rw [beq_iff_eq.mp hnl] at hdigit
      exact absurd hdigit (by decide)
  · have hbar := List.all_eq_true.mp isNewline_bar c hc
    rwa [Bool.not_eq_true'] at hbar

lemma lines_flatten (src : Bytes) (n : ℕ) :
    lines (numberFrom n (lines src)).flatten = numberFrom n (lines src) ∧
      lines (insideLine n (lines src)).flatten = insideLine n (lines src) := by
  induction src generalizing n with
  | nil => exact ⟨rfl, rfl⟩
  | cons b src ih =>
    have hinside : lines (insideLine n (lines (b :: src))).flatten = insideLine n (lines (b :: src)) := by
      rw [flatten_insideLine_cons]
      by_cases hb : b = newline
      · rw [if_pos hb, hb, lines_newline, (ih (n + 1)).1, lines_newline]
        rfl
      · rw [if_neg hb, lines_inside hb, (ih n).2, lines_inside hb]
        cases lines src <;> rfl
    refine ⟨?_, hinside⟩
    obtain ⟨line, more, hlines⟩ := List.exists_cons_of_ne_nil (lines_cons_ne_nil b src)
    rw [hlines] at hinside ⊢
    rw [flatten_numberFrom_cons, lines, segments_append_front (isNewline_lead n) hinside, numberFrom_cons]

end Lines

lemma text_machine (array : Bytes) (harray : array.length = 21) (src : Bytes) (hsrc : src.length < 2 ^ 63) :
    machine.text ⟨1, true, array⟩ src = (numberedLines src).flatten :=
  flatten_putBytes (s := ⟨1, true, array⟩) harray (by
    change 1 + src.length < 2 ^ 64
    omega)

theorem lines_numbered (w : World) (program inputFilename : Bytes) (rest : List Bytes)
    (harray : w.array.length = 21) (hinput : w.input.length < 2 ^ 63) :
    (∀ name text, (main w (program :: inputFilename :: rest)).file = some (name, text) →
        name = inputFilename ++ ascii ".no" ∧ text <+: (numberedLines w.input).flatten) ∧
      ((main w (program :: inputFilename :: rest)).status = 0 →
        (main w (program :: inputFilename :: rest)).file =
          some (inputFilename ++ ascii ".no", (numberedLines w.input).flatten)) ∧
      (w.inputOpens → w.outputOpens → Harmless ⟨false, false⟩ w.reads → Harmless ⟨false, false⟩ w.writes →
        (main w (program :: inputFilename :: rest)).status = 0) ∧
      lines (numberedLines w.input).flatten = numberedLines w.input := by
  have hsize : 0 < batchSize := by decide
  have hspec := relay_spec machine ⟨false, false⟩ ⟨false, false⟩ hsize w.reads w.writes
    ⟨1, true, w.array⟩ w.input
  have htext := text_machine w.array harray w.input hinput
  have hout := hspec.out_eq
  rw [htext] at hout
  obtain ⟨seen, hseen, hprefix, -⟩ := hspec.seen
  have hpart : machine.text ⟨1, true, w.array⟩ seen <+: (numberedLines w.input).flatten := by
    rw [← htext, hseen]
    exact ⟨_, (machine.flatten_append ⟨1, true, w.array⟩ seen _).symm⟩
  have hwhole := hprefix.trans hpart
  have hsucceeds := hspec.succeeds
  rw [main]
  simp only [List.getElem?_cons_succ, List.getElem?_cons_zero]
  generalize relay machine ⟨false, false⟩ ⟨false, false⟩ batchSize w.reads w.writes ⟨1, true, w.array⟩
    w.input = copied at hout hwhole hsucceeds ⊢
  obtain ⟨out, ending, state, left, writes⟩ := copied
  cases w.inputOpens with
  | false => exact ⟨nofun, nofun, nofun, (lines_flatten w.input 1).1⟩
  | true =>
    cases w.outputOpens with
    | false => exact ⟨nofun, nofun, nofun, (lines_flatten w.input 1).1⟩
    | true =>
      have hfile : ∀ name text, some (getOutputFilename inputFilename, out) = some (name, text) →
          name = inputFilename ++ ascii ".no" ∧ text <+: (numberedLines w.input).flatten := by
        intro name text heq
        obtain ⟨rfl, rfl⟩ := Prod.mk.inj (Option.some.inj heq)
        exact ⟨rfl, hwhole⟩
      cases ending with
      | atEnd =>
        have hall : out = (numberedLines w.input).flatten := hout rfl
        refine ⟨hfile, fun _ => ?_, fun _ _ _ _ => rfl, (lines_flatten w.input 1).1⟩
        rw [← hall]
        rfl
      | readFailed =>
        refine ⟨hfile, fun h => absurd h (Nat.succ_ne_zero 0), fun _ _ hreads hwrites => ?_,
          (lines_flatten w.input 1).1⟩
        cases hsucceeds hreads hwrites
      | writeFailed =>
        refine ⟨hfile, fun h => absurd h (Nat.succ_ne_zero 0), fun _ _ hreads hwrites => ?_,
          (lines_flatten w.input 1).1⟩
        cases hsucceeds hreads hwrites

theorem lines_numbered_short :
    (main ⟨ascii "a\nbc", true, true, [.upTo 1, .upTo 2], [.upTo 1], List.replicate 21 0⟩
      [ascii "w4", ascii "in"]).file = some (ascii "in.no", ascii "1 | a\n2 | bc") := by
  have h := lines_numbered ⟨ascii "a\nbc", true, true, [.upTo 1, .upTo 2], [.upTo 1], List.replicate 21 0⟩
    (ascii "w4") (ascii "in") [] List.length_replicate (by decide)
  have hstatus := h.2.2.1 rfl rfl (by decide) (by decide)
  rw [h.2.1 hstatus]
  have hone : decimal 1 = ascii "1" := by
    rw [decimal_small (by decide)]
    rfl
  have htwo : decimal 2 = ascii "2" := by
    rw [decimal_small (by decide)]
    rfl
  have hlines : lines (ascii "a\nbc") = [ascii "a\n", ascii "bc"] := rfl
  rw [numberedLines, hlines, numberFrom_cons, numberFrom_cons, hone, htwo]
  rfl

end SystemsLab.Executables.Numbering
