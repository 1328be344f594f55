import SystemsLab.Search.Text

/-! Reading lines through a buffer (`line_reader_read_line` of `io.c`), whatever pieces `read`
returns. -/

namespace SystemsLab.Search

open CLib

/-- `buffer` is the part of the buffer from `pos` to `len`, and `chunks` are the pieces that further
calls of `read` return before the end of the file. -/
structure LineReader where
  chunks : List Bytes
  buffer : Bytes

def lineReaderInit (chunks : List Bytes) : LineReader := ⟨chunks, []⟩

structure ReadLine where
  status : Bool
  line : Bytes
  hadNewline : Bool
  reader : LineReader

/-- The loop of `line_reader_read_line`, from the search for a newline on. -/
def lineReaderLoop (out buffer : Bytes) (chunks : List Bytes) : ReadLine :=
  let out := out ++ buffer.takeWhile (· ≠ newline)
  match buffer.dropWhile (· ≠ newline) with
  | _ :: rest => ⟨true, out, true, ⟨chunks, rest⟩⟩
  | [] =>
    match chunks with
    | [] => ⟨out.length > 0, out, false, ⟨[], []⟩⟩
    | chunk :: chunks =>
      if chunk = [] then ⟨out.length > 0, out, false, ⟨chunks, []⟩⟩
      else lineReaderLoop out chunk chunks

def lineReaderReadLine (reader : LineReader) : ReadLine :=
  lineReaderLoop [] reader.buffer reader.chunks

def LineReader.rest (reader : LineReader) : Bytes := reader.buffer ++ reader.chunks.flatten

variable {out buffer s line rest : Bytes} {chunks : List Bytes} {reader : LineReader}

lemma takeWhile_length_add (buffer : Bytes) :
    (buffer.takeWhile (· ≠ newline)).length + (buffer.dropWhile (· ≠ newline)).length =
      buffer.length := by
  rw [← List.length_append, List.takeWhile_append_dropWhile]

lemma lineReaderLoop_length :
    (lineReaderLoop out buffer chunks).reader.rest.length +
        (lineReaderLoop out buffer chunks).line.length +
        (lineReaderLoop out buffer chunks).hadNewline.toNat =
      out.length + buffer.length + chunks.flatten.length := by
  have hsplit := takeWhile_length_add buffer
  induction chunks generalizing out buffer with
  | nil =>
    rw [lineReaderLoop]
    split
    · next c rest hd =>
      rw [hd, List.length_cons] at hsplit
      simp only [LineReader.rest, List.length_append, Bool.toNat_true]
      omega
    · next hd =>
      rw [hd, List.length_nil] at hsplit
      simp only [LineReader.rest, List.length_append, List.flatten_nil, List.length_nil,
        Bool.toNat_false]
      omega
  | cons chunk chunks ih =>
    rw [lineReaderLoop]
    split
    · next c rest hd =>
      rw [hd, List.length_cons] at hsplit
      simp only [LineReader.rest, List.length_append, Bool.toNat_true]
      omega
    · next hd =>
      rw [hd, List.length_nil] at hsplit
      split_ifs with hnil
      · simp only [LineReader.rest, hnil, List.length_append, List.flatten_cons, List.length_nil,
          Bool.toNat_false]
        omega
      · rw [ih (takeWhile_length_add chunk)]
        simp only [List.length_append, List.flatten_cons]
        omega

lemma lineReaderLoop_status (h : (lineReaderLoop out buffer chunks).status = true) :
    0 < (lineReaderLoop out buffer chunks).line.length +
      (lineReaderLoop out buffer chunks).hadNewline.toNat := by
  fun_induction lineReaderLoop out buffer chunks with
  | case1 => exact Nat.succ_pos _
  | case2 => exact of_decide_eq_true h
  | case3 => exact of_decide_eq_true h
  | case4 _ _ _ _ _ _ _ ih => exact ih h

lemma lineReaderReadLine_lt (h : (lineReaderReadLine reader).status = true) :
    (lineReaderReadLine reader).reader.rest.length < reader.rest.length := by
  have hlength : (lineReaderReadLine reader).reader.rest.length +
      (lineReaderReadLine reader).line.length +
      (lineReaderReadLine reader).hadNewline.toNat =
        0 + reader.buffer.length + reader.chunks.flatten.length := lineReaderLoop_length
  have hpos : 0 < (lineReaderReadLine reader).line.length +
      (lineReaderReadLine reader).hadNewline.toNat := lineReaderLoop_status h
  have hrest : reader.rest.length = reader.buffer.length + reader.chunks.flatten.length := by
    rw [LineReader.rest, List.length_append]
  omega

def readLines (reader : LineReader) : List (Bytes × Bool) :=
  let r := lineReaderReadLine reader
  if _h : r.status = true then (r.line, r.hadNewline) :: readLines r.reader else []
termination_by reader.rest.length
decreasing_by exact lineReaderReadLine_lt _h

lemma takeWhile_of_dropWhile_nil (h : s.dropWhile (· ≠ newline) = []) :
    s.takeWhile (· ≠ newline) = s := by
  have hsplit := List.takeWhile_append_dropWhile (p := (· ≠ newline)) (l := s)
  rwa [h, List.append_nil] at hsplit

lemma lineReaderLoop_newline {c : UInt8} {tail : Bytes} (hne : [] ∉ chunks)
    (hd : (buffer ++ chunks.flatten).dropWhile (· ≠ newline) = c :: tail) :
    ∃ reader, lineReaderLoop out buffer chunks =
        ⟨true, out ++ (buffer ++ chunks.flatten).takeWhile (· ≠ newline), true, reader⟩ ∧
      reader.rest = tail ∧ [] ∉ reader.chunks := by
  induction chunks generalizing out buffer with
  | nil =>
    rw [List.flatten_nil, List.append_nil] at hd ⊢
    refine ⟨⟨[], tail⟩, ?_, List.append_nil tail, hne⟩
    rw [lineReaderLoop, hd]
  | cons chunk chunks ih =>
    rw [lineReaderLoop]
    cases hb : buffer.dropWhile (· ≠ newline) with
    | cons b rest =>
      refine ⟨⟨chunk :: chunks, rest⟩, ?_, ?_, hne⟩
      · have hsplit := takeWhile_length_add buffer
        rw [hb, List.length_cons] at hsplit
        have hlen : (buffer.takeWhile (· ≠ newline)).length ≠ buffer.length := by omega
        rw [List.takeWhile_append, if_neg hlen]
      · rw [List.dropWhile_append, hb] at hd
        exact (List.cons.inj hd).2
    | nil =>
      have hbuffer := takeWhile_of_dropWhile_nil hb
      rw [List.dropWhile_append, hb, List.isEmpty_nil, if_pos rfl, List.flatten_cons] at hd
      rw [if_neg (ne_of_mem_of_not_mem List.mem_cons_self hne), hbuffer, List.takeWhile_append, hbuffer,
        if_pos rfl, List.flatten_cons, ← List.append_assoc]
      exact ih (fun h => hne (List.mem_cons_of_mem _ h)) hd

lemma lineReaderLoop_end (hne : [] ∉ chunks)
    (hd : (buffer ++ chunks.flatten).dropWhile (· ≠ newline) = []) :
    lineReaderLoop out buffer chunks =
      ⟨decide (0 < (out ++ (buffer ++ chunks.flatten)).length), out ++ (buffer ++ chunks.flatten),
        false, ⟨[], []⟩⟩ := by
  induction chunks generalizing out buffer with
  | nil =>
    rw [List.flatten_nil, List.append_nil] at hd ⊢
    rw [lineReaderLoop, hd, takeWhile_of_dropWhile_nil hd]
  | cons chunk chunks ih =>
    rw [List.dropWhile_append] at hd
    cases hb : buffer.dropWhile (· ≠ newline) with
    | cons b rest =>
      rw [hb] at hd
      cases hd
    | nil =>
      rw [hb, List.isEmpty_nil, if_pos rfl, List.flatten_cons] at hd
      rw [lineReaderLoop, hb, takeWhile_of_dropWhile_nil hb]
      change (if chunk = [] then _ else lineReaderLoop (out ++ buffer) chunk chunks) = _
      rw [if_neg (ne_of_mem_of_not_mem List.mem_cons_self hne),
        ih (fun h => hne (List.mem_cons_of_mem _ h)) hd, List.flatten_cons, List.append_assoc]

lemma linesOf_end (hd : s.dropWhile (· ≠ newline) = []) :
    linesOf s = if s = [] then [] else [(s, false)] := by
  cases s with
  | nil => rw [linesOf, if_pos rfl]
  | cons c t =>
    rw [linesOf, if_neg (List.cons_ne_nil c t)]
    split
    · rw [takeWhile_of_dropWhile_nil hd]
    · next he =>
      rw [hd] at he
      cases he

lemma linesOf_cut {c : UInt8} {tail : Bytes} (hd : s.dropWhile (· ≠ newline) = c :: tail) :
    linesOf s = (s.takeWhile (· ≠ newline), true) :: linesOf tail := by
  cases s with
  | nil => cases hd
  | cons c' t =>
    rw [linesOf]
    split
    · next he =>
      rw [hd] at he
      cases he
    · next c₁ tail₁ he =>
      rw [hd] at he
      rw [(List.cons.inj he).2]

lemma readLines_eq (hne : [] ∉ reader.chunks) : readLines reader = linesOf reader.rest := by
  fun_induction readLines reader with
  | case1 reader r hstatus ih =>
    cases hd : reader.rest.dropWhile (· ≠ newline) with
    | nil =>
      have hloop : r = ⟨decide (0 < reader.rest.length), reader.rest, false, ⟨[], []⟩⟩ :=
        lineReaderLoop_end hne hd
      rw [hloop] at ih hstatus ⊢
      rw [linesOf_end hd, if_neg (List.length_pos_iff.mp (of_decide_eq_true hstatus)), ih nofun]
      have hrest : linesOf (LineReader.mk [] []).rest = [] := linesOf_end rfl
      exact congrArg _ hrest
    | cons c tail =>
      obtain ⟨reader', hloop, hrest, hne'⟩ := lineReaderLoop_newline hne hd
      have hr : r = ⟨true, reader.rest.takeWhile (· ≠ newline), true, reader'⟩ := hloop
      rw [hr] at ih ⊢
      rw [linesOf_cut hd, ih hne', hrest]
  | case2 reader r hstatus =>
    cases hd : reader.rest.dropWhile (· ≠ newline) with
    | nil =>
      have hloop : r = ⟨decide (0 < reader.rest.length), reader.rest, false, ⟨[], []⟩⟩ :=
        lineReaderLoop_end hne hd
      have hnil : reader.rest = [] := by
        rw [hloop, decide_eq_true_eq, List.length_pos_iff, not_not] at hstatus
        exact hstatus
      rw [hnil, linesOf]
    | cons c tail =>
      obtain ⟨reader', hloop, -⟩ := lineReaderLoop_newline hne hd
      have hr : r = ⟨true, reader.rest.takeWhile (· ≠ newline), true, reader'⟩ := hloop
      exact absurd (congrArg ReadLine.status hr) hstatus

/-- The text cut after each newline, the newlines dropped. What follows the last newline is a line
if it is not empty. -/
def cutLines (s : Bytes) : List Bytes :=
  let parts := s.splitOn newline
  if parts.getLast? = some [] then parts.dropLast else parts

lemma splitOn_end (hd : s.dropWhile (· ≠ newline) = []) : s.splitOn newline = [s] := by
  rw [List.dropWhile_eq_nil_iff] at hd
  rw [List.splitOn_eq_splitOnP]
  apply List.splitOnP_eq_singleton
  intro c hc
  simpa using hd c hc

lemma head_newline {c : UInt8} {tail : Bytes} (hd : s.dropWhile (· ≠ newline) = c :: tail) :
    c = newline := by
  have hhead := List.head_dropWhile_not (· ≠ newline) (by rw [hd]; exact nofun)
  simp only [hd, List.head_cons, decide_eq_false_iff_not, not_not] at hhead
  exact hhead

lemma splitOn_cut {c : UInt8} {tail : Bytes} (hd : s.dropWhile (· ≠ newline) = c :: tail) :
    s.splitOn newline = s.takeWhile (· ≠ newline) :: tail.splitOn newline := by
  have hs : s = s.takeWhile (· ≠ newline) ++ newline :: tail := by
    conv_lhs => rw [← List.takeWhile_append_dropWhile (p := (· ≠ newline)) (l := s), hd,
      head_newline hd]
  conv_lhs => rw [hs]
  rw [List.splitOn_eq_splitOnP, List.splitOn_eq_splitOnP]
  apply List.splitOnP_append_cons_of_forall_mem
  · intro x hx
    simpa using List.mem_takeWhile_imp hx
  · exact beq_self_eq_true _

lemma cutLines_end (hd : s.dropWhile (· ≠ newline) = []) :
    cutLines s = if s = [] then [] else [s] := by
  rw [cutLines, splitOn_end hd]
  simp only [List.getLast?_singleton, Option.some.injEq, List.dropLast_singleton]

lemma cutLines_cut {c : UInt8} {tail : Bytes} (hd : s.dropWhile (· ≠ newline) = c :: tail) :
    cutLines s = s.takeWhile (· ≠ newline) :: cutLines tail := by
  rw [cutLines, splitOn_cut hd, cutLines]
  have hne := List.splitOn_ne_nil newline tail
  obtain ⟨part, parts, hparts⟩ := List.exists_cons_of_ne_nil hne
  rw [hparts, List.getLast?_cons_cons, List.dropLast_cons_cons]
  exact (apply_ite (List.cons _) _ _ _).symm

lemma map_fst_linesOf (s : Bytes) : (linesOf s).map Prod.fst = cutLines s := by
  induction hn : s.length using Nat.strong_induction_on generalizing s with
  | h n ih =>
    cases hd : s.dropWhile (· ≠ newline) with
    | nil =>
      rw [linesOf_end hd, cutLines_end hd]
      split_ifs <;> rfl
    | cons c tail =>
      have hle := List.length_dropWhile_le (· ≠ newline) s
      rw [hd, List.length_cons] at hle
      rw [linesOf_cut hd, cutLines_cut hd, List.map_cons, ih tail.length (by omega) tail rfl]

end SystemsLab.Search
