import SystemsLab.Search.BufferedOutput
import SystemsLab.Search.Containment
import SystemsLab.Search.Phrases

namespace SystemsLab.Search

open CLib Effects OutBuf

def sliceEqualsCstr : Bytes → Bytes → Bool
  | c :: data, l :: literal => if c ≠ l then false else sliceEqualsCstr data literal
  | data, literal => data.isEmpty && literal.isEmpty

lemma sliceEqualsCstr_iff {data literal : Bytes} :
    sliceEqualsCstr data literal = true ↔ data = literal := by
  induction data generalizing literal with
  | nil => cases literal <;> simp [sliceEqualsCstr]
  | cons c data ih => cases literal <;> simp [sliceEqualsCstr, ih]

def passAll : OutBuf → List OutBuf.Call → OutBuf × Bool
  | out, [] => (out, true)
  | out, c :: calls =>
    let (next, ok) := out.call c
    if ok then passAll next calls else (next, false)

structure Ended where
  out : Bytes
  err : Bytes
  status : ℕ
deriving DecidableEq

def endWith (out : OutBuf) (err : Bytes) (status : ℕ) : Ended := ⟨out.flush.1.accepted, err, status⟩

variable (calls : Bytes → Session → List OutBuf.Call)

/-- The main loop. `calls` are the calls by which a query prints. -/
def queryLoop (reader : LineReader) (s : Session) (out : OutBuf) : Ended :=
  let r := lineReaderReadLine reader
  if _h : r.status = true then
    if r.line.length > queryLimit then endWith out (ascii "query is too long\n") 1
    else if sliceEqualsCstr r.line (ascii "PA1EXIT") then endWith out [] 0
    else
      let ((success, _), next) := answer r.line s
      let (out, passed) := passAll out (calls r.line s)
      if !(success && passed) then endWith out (ascii "failed to execute query\n") 1
      else if !out.flush.2 then ⟨out.flush.1.accepted, ascii "failed to flush stdout\n", 1⟩
      else queryLoop r.reader next out.flush.1
  else endWith out [] 0
termination_by reader.rest.length
decreasing_by exact lineReaderReadLine_lt _h

/-- `files` are the files that can be opened, and `stdin` the pieces that `read` returns. -/
def main (files : Bytes → Option Bytes) (argv stdin : List Bytes) (answers : List WriteAnswer) : Ended :=
  match argv with
  | [_, path] =>
    match files path with
    | none => ⟨[], ascii "failed to open input file\n", 1⟩
    | some input => queryLoop calls (lineReaderInit stdin) (freshSession input) (OutBuf.init answers)
  | _ => ⟨[], ascii "usage: ./pa1 <input-file>\n", 1⟩

def isAnswered (line : Bytes) : Bool := decide (line.length ≤ queryLimit) && line != ascii "PA1EXIT"

def answered (lines : List Bytes) : List Bytes := lines.takeWhile isAnswered

def stopsLong (lines : List Bytes) : Bool := (lines.dropWhile isAnswered).head?.any (queryLimit < ·.length)

structure Flushed (out : OutBuf) : Prop where
  unfailing : out.Unfailing
  stale_eq : out.stale = 0
  buf_eq : out.buf = []

variable {calls} {input query : Bytes} {out : OutBuf} {passed : Bytes} {reader : LineReader}

section Printing

lemma passAll_unfailing (cs : List OutBuf.Call) (h : out.Unfailing) (hstale : out.stale = 0)
    (hpassed : out.accepted ++ out.buf = passed) :
    (passAll out cs).2 = true ∧ (passAll out cs).1.Unfailing ∧ (passAll out cs).1.stale = 0 ∧
      (passAll out cs).1.accepted ++ (passAll out cs).1.buf =
        passed ++ cs.flatMap OutBuf.Call.payload := by
  induction cs generalizing out passed with
  | nil => exact ⟨rfl, h, hstale, hpassed.trans (List.append_nil _).symm⟩
  | cons c cs ih =>
    obtain ⟨hok, hnext⟩ := h.call c
    obtain ⟨hstale', hpassed'⟩ := (call_written c hstale hpassed).holds hok
    rw [passAll]
    simp only [hok, if_true]
    rw [List.flatMap_cons, ← List.append_assoc]
    exact ih hnext hstale' hpassed'

lemma flush_unfailing (h : out.Unfailing) (hstale : out.stale = 0)
    (hpassed : out.accepted ++ out.buf = passed) :
    out.flush.2 = true ∧ Flushed out.flush.1 ∧ out.flush.1.accepted = passed := by
  obtain ⟨hok, hnext, hbuf⟩ := h.flush
  obtain ⟨hstale', hpassed'⟩ := (flush_written hstale hpassed).1.holds hok
  rw [hbuf, List.append_nil] at hpassed'
  exact ⟨hok, ⟨hnext, hstale', hbuf⟩, hpassed'⟩

lemma Flushed.endWith (h : Flushed out) (err : Bytes) (status : ℕ) :
    endWith out err status = ⟨out.accepted, err, status⟩ := by
  rw [Search.endWith, OutBuf.flush, if_pos h.buf_eq]

end Printing

lemma cutLines_rest (hne : [] ∉ reader.chunks) :
    if (lineReaderReadLine reader).status then
      cutLines reader.rest =
          (lineReaderReadLine reader).line :: cutLines (lineReaderReadLine reader).reader.rest ∧
        [] ∉ (lineReaderReadLine reader).reader.chunks
    else cutLines reader.rest = [] := by
  cases hd : reader.rest.dropWhile (· ≠ newline) with
  | nil =>
    have hloop : lineReaderReadLine reader =
        ⟨decide (0 < reader.rest.length), reader.rest, false, ⟨[], []⟩⟩ := lineReaderLoop_end hne hd
    have hnil : cutLines (LineReader.mk [] []).rest = [] := cutLines_end rfl
    rw [hloop, cutLines_end hd]
    by_cases hrest : reader.rest = []
    · simp only [hrest, List.length_nil, Nat.lt_irrefl, decide_false, Bool.false_eq_true, if_false,
        if_true]
    · simp only [decide_eq_true_eq, List.length_pos_iff.mpr hrest, if_true, if_neg hrest, hnil]
      exact ⟨trivial, List.not_mem_nil⟩
  | cons c tail =>
    obtain ⟨reader', hloop, hrest, hne'⟩ := lineReaderLoop_newline hne hd
    have hread : lineReaderReadLine reader =
        ⟨true, reader.rest.takeWhile (· ≠ newline), true, reader'⟩ := hloop
    rw [hread]
    simp only [if_true]
    exact ⟨by rw [cutLines_cut hd, hrest], hne'⟩

section Lines

lemma newline_not_mem_decimal (n : ℕ) : newline ∉ decimal n := by
  rw [decimal]
  split_ifs
  · decide
  · rw [← digitsOf_eq, List.mem_reverse]
    intro hmem
    exact absurd (isDigit_of_mem_digitsOf newline hmem) (by decide)

lemma newline_not_mem_lineRef (p : ℕ × ℕ) : newline ∉ lineRef p := by
  simp only [lineRef, List.mem_append, not_or]
  exact ⟨⟨⟨newline_not_mem_decimal _, by decide⟩, newline_not_mem_decimal _⟩, by decide⟩

lemma newline_not_mem_lineNoRef (k : ℕ) : newline ∉ lineNoRef k := by
  simp only [lineNoRef, List.mem_append, not_or]
  exact ⟨newline_not_mem_decimal _, by decide⟩

lemma newline_not_mem_flatMap {α : Type} {ref : α → Bytes} (h : ∀ a, newline ∉ ref a) (l : List α) :
    newline ∉ l.flatMap ref := by
  rw [List.mem_flatMap]
  rintro ⟨a, -, ha⟩
  exact h a ha

def PrintsLine (answered : Bool × Bytes) : Prop :=
  ∃ body, answered = (true, body ++ [newline]) ∧ newline ∉ body

variable {body : Bytes} {s : Session}

lemma printsLine (hbody : newline ∉ body) (history : List Bytes)
    (h : ∀ s, CacheSound s → s.index = indexBuild input →
      Ends (handleQuery query) (fun _ s' => s'.out = s.out ++ body ++ [newline]) (fun _ _ => False) s) :
    PrintsLine (answer query (afterQueries input history)).1 := by
  refine ⟨body, answer_eq fun s hs hindex hout => (h s hs hindex).imp fun _ s' hs' => ?_, hbody⟩
  rw [hs', hout, List.nil_append]

lemma cacheSound_reset (hs : CacheSound s) : CacheSound (queryScratchReset s) :=
  ⟨hs.index, hs.path_lt, hs.holds⟩

lemma blankLine_ends : Ends (output emitBlankLine) (fun _ s' => s'.out = s.out ++ [] ++ [newline])
    (fun _ _ => False) s := by
  rw [ends_output, emitBlankLine, ends_emit, List.append_nil]

lemma answer_printsLine (h : Indexable input) (hlength : query.length ≤ queryLimit)
    (history : List Bytes) : PrintsLine (answer query (afterQueries input history)).1 := by
  by_cases hquote : 34 ∈ query
  · cases hof : phraseOf query with
    | none =>
      apply printsLine List.not_mem_nil history
      intro s hs hindex
      apply handleQuery_phrase hquote
      rw [handlePhrase, hof]
      exact blankLine_ends
    | some phrase =>
      apply printsLine (newline_not_mem_flatMap newline_not_mem_lineRef _) history
      intro s hs hindex
      exact handleQuery_phrase hquote (handlePhrase_ends h (cacheSound_reset hs) hindex hof)
  by_cases hstar : 42 ∈ query
  · cases hof : patternOf query with
    | none =>
      apply printsLine List.not_mem_nil history
      intro s hs hindex
      apply handleQuery_pattern hquote hstar
      rw [handlePattern, hof]
      exact blankLine_ends
    | some sides =>
      obtain ⟨leftId, rightId, hends⟩ := handlePattern_ends h hof
      apply printsLine (newline_not_mem_flatMap newline_not_mem_lineNoRef _) history
      intro s hs hindex
      exact handleQuery_pattern hquote hstar (hends _ (cacheSound_reset hs) hindex)
  have hquote' : query.contains 34 = false := by simpa using hquote
  have hstar' : query.contains 42 = false := by simpa using hstar
  have hsorted := (wordsFrom_sorted 0 query).1
  cases hwords : wordsFrom 0 query with
  | nil =>
    apply printsLine List.not_mem_nil history
    intro s hs hindex
    rw [handleQuery, hquote', hstar', hwords, ends_bind, ends_modify]
    exact blankLine_ends
  | cons p rest =>
    cases rest with
    | nil =>
      apply printsLine (newline_not_mem_flatMap newline_not_mem_lineRef _) history
      intro s hs hindex
      have hword : IsWordAt query p.1 p.2 := by
        rw [← mem_wordsFrom, hwords]
        exact List.mem_singleton_self p
      rw [handleQuery, hquote', hstar', hwords, ends_bind, ends_modify]
      exact handleSingle_ends h (cacheSound_reset hs) hindex hword.ne_nil
    | cons q rest =>
      have hp : IsWordAt query p.1 p.2 := by
        rw [← mem_wordsFrom, hwords]
        exact List.mem_cons_self
      have hq : IsWordAt query q.1 q.2 := by
        rw [← mem_wordsFrom, hwords]
        exact List.mem_cons_of_mem p List.mem_cons_self
      rw [hwords, List.map_cons, List.map_cons, List.pairwise_cons] at hsorted
      have hne : p.1 ≠ q.1 := (hsorted.1 q.1 List.mem_cons_self).ne
      have hmulti : IsMulti query := ⟨hquote, hstar, hlength, p.1, q.1, p.2, q.2, hne, hp, hq⟩
      obtain ⟨lines, -, -, hanswer⟩ := multi_answer h.spellable hmulti
      exact ⟨_, hanswer history, newline_not_mem_flatMap newline_not_mem_lineNoRef lines⟩

end Lines

lemma afterQueries_concat (input : Bytes) (history : List Bytes) (query : Bytes) :
    afterQueries input (history ++ [query]) = (answer query (afterQueries input history)).2 :=
  List.foldl_append

lemma count_newlines {queries : List Bytes} {printed : Bytes → Bool × Bytes}
    (h : ∀ query ∈ queries, PrintsLine (printed query)) :
    (queries.flatMap fun query => (printed query).2).count newline = queries.length := by
  induction queries with
  | nil => rfl
  | cons query queries ih =>
    obtain ⟨body, hprints, hbody⟩ := h query List.mem_cons_self
    rw [List.flatMap_cons, List.count_append, ih fun q hq => h q (List.mem_cons_of_mem query hq),
      hprints, List.count_append, List.count_eq_zero_of_not_mem hbody, List.count_singleton_self,
      List.length_cons]
    omega

lemma queryLoop_eq (h : Indexable input)
    (hcalls : ∀ query s, (calls query s).flatMap OutBuf.Call.payload = (answer query s).1.2)
    (hne : [] ∉ reader.chunks) (hout : Flushed out) (history : List Bytes) :
    queryLoop calls reader (afterQueries input history) out =
      ⟨out.accepted ++ (answered (cutLines reader.rest)).flatMap fun query =>
          (answer query (freshSession input)).1.2,
        if stopsLong (cutLines reader.rest) then ascii "query is too long\n" else [],
        if stopsLong (cutLines reader.rest) then 1 else 0⟩ := by
  induction hlen : reader.rest.length using Nat.strong_induction_on generalizing reader out history with
  | _ len ih =>
    have hcut := cutLines_rest hne
    rw [queryLoop]
    by_cases hstatus : (lineReaderReadLine reader).status = true
    · rw [if_pos hstatus] at hcut
      obtain ⟨hlines, hne'⟩ := hcut
      have hshort := hlen ▸ lineReaderReadLine_lt hstatus
      rw [dif_pos hstatus, hlines]
      generalize (lineReaderReadLine reader).line = query at *
      generalize (lineReaderReadLine reader).reader = next at *
      by_cases hlength : query.length ≤ queryLimit
      · rw [if_neg (Nat.not_lt.mpr hlength)]
        by_cases hexit : query = ascii "PA1EXIT"
        · have hstop : isAnswered query = false := by simp [isAnswered, hexit]
          rw [if_pos (sliceEqualsCstr_iff.mpr hexit), hout.endWith]
          simp [answered, stopsLong, hstop, Nat.not_lt.mpr hlength]
        · have hgo : isAnswered query = true := by simp [isAnswered, hexit, hlength]
          rw [if_neg (mt sliceEqualsCstr_iff.mp hexit)]
          obtain ⟨body, hprints, -⟩ := answer_printsLine h hlength history
          have hsame := answer_fresh input history query
          have hpassed : out.accepted ++ out.buf = out.accepted := by
            rw [hout.buf_eq, List.append_nil]
          obtain ⟨hok, hunfailing, hstale, hcontents⟩ := passAll_unfailing
            (calls query (afterQueries input history)) hout.unfailing hout.stale_eq hpassed
          obtain ⟨hflush, hflushed, haccepted⟩ := flush_unfailing hunfailing hstale hcontents
          rw [hcalls] at haccepted
          have hnext := ih _ hshort hne' hflushed (history ++ [query]) rfl
          rw [afterQueries_concat, haccepted] at hnext
          have hlines : answered (query :: cutLines next.rest) = query :: answered (cutLines next.rest) :=
            List.takeWhile_cons_of_pos hgo
          have hstops : stopsLong (query :: cutLines next.rest) = stopsLong (cutLines next.rest) := by
            rw [stopsLong, stopsLong, List.dropWhile_cons_of_pos hgo]
          rw [hlines, hstops, List.flatMap_cons, ← hsame, ← List.append_assoc, ← hnext]
          rw [hprints] at hsame
          cases hanswer : answer query (afterQueries input history) with
          | mk printed s' =>
            rw [hanswer] at hprints
            simp only at hprints
            simp [hprints, hok, hflush]
      · have hstop : isAnswered query = false := by simp [isAnswered, hlength]
        rw [if_pos (Nat.lt_of_not_le hlength), hout.endWith]
        simp [answered, stopsLong, hstop, Nat.lt_of_not_le hlength]
    · rw [if_neg hstatus] at hcut
      rw [dif_neg hstatus, hcut, hout.endWith]
      simp [answered, stopsLong]

theorem main_answers (calls : Bytes → Session → List OutBuf.Call)
    (hcalls : ∀ query s, (calls query s).flatMap OutBuf.Call.payload = (answer query s).1.2)
    (files : Bytes → Option Bytes) (program path : Bytes) (hfile : files path = some input)
    (h : Indexable input) (stdin : List Bytes) (hstdin : [] ∉ stdin) (answers : List WriteAnswer)
    (hanswers : .failed ∉ answers) :
    main calls files [program, path] stdin answers =
        ⟨(answered (cutLines stdin.flatten)).flatMap fun query =>
            (answer query (freshSession input)).1.2,
          if stopsLong (cutLines stdin.flatten) then ascii "query is too long\n" else [],
          if stopsLong (cutLines stdin.flatten) then 1 else 0⟩ ∧
      (∀ query ∈ answered (cutLines stdin.flatten),
        PrintsLine (answer query (freshSession input)).1) ∧
      (main calls files [program, path] stdin answers).out.count newline =
        (answered (cutLines stdin.flatten)).length := by
  have hready : Flushed (OutBuf.init answers) := ⟨⟨hanswers, Nat.zero_le _⟩, rfl, rfl⟩
  have hreader : [] ∉ (lineReaderInit stdin).chunks := hstdin
  have hmain := queryLoop_eq h hcalls hreader hready []
  have hlines : ∀ query ∈ answered (cutLines stdin.flatten),
      PrintsLine (answer query (freshSession input)).1 := by
    intro query hquery
    have hanswered := List.mem_takeWhile_imp hquery
    rw [isAnswered, Bool.and_eq_true, decide_eq_true_eq] at hanswered
    exact answer_printsLine h hanswered.1 []
  have heq : main calls files [program, path] stdin answers =
      queryLoop calls (lineReaderInit stdin) (freshSession input) (OutBuf.init answers) := by
    rw [main, hfile]
  rw [heq]
  change queryLoop calls _ (freshSession input) _ = _ at hmain
  refine ⟨hmain, hlines, ?_⟩
  rw [hmain]
  exact count_newlines hlines

theorem main_answers_exit :
    (main (fun query s => [.data (answer query s).1.2]) (fun _ => some (ascii "ab cd\n aB"))
      [ascii "./pa1", ascii "input"] [ascii "AB\nPA", ascii "1EXIT\nab\n"]
      [.upTo 1, .interrupted]).out.count newline = 1 := by
  have hfits : Indexable (ascii "ab cd\n aB") := indexable_of_length (by decide)
  have hanswers := main_answers (fun query s => [.data (answer query s).1.2])
    (fun query s => List.append_nil _) (fun _ => some (ascii "ab cd\n aB")) (ascii "./pa1")
    (ascii "input") rfl hfits [ascii "AB\nPA", ascii "1EXIT\nab\n"] (by decide)
    [.upTo 1, .interrupted] (by decide)
  rw [hanswers.2.2]
  decide

end SystemsLab.Search
