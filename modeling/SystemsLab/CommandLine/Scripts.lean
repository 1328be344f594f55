import SystemsLab.CommandLine.Bounds

namespace SystemsLab.CommandLine

open CLib

/-- Where `c` is in a C string, if it is in it. -/
def strchr (s : Bytes) (c : UInt8) : Option ℕ := (cstr s).idxOf? c

variable {σ : Type}

/-- The line loop. `content` are the bytes of the file; in the buffer a NUL stands behind them.
`evaluate` takes a line and the last status to a status and a state of the shell. -/
def scriptLoop (evaluate : Bytes → ℤ → σ → ℤ × σ) (content : Bytes) :
    ℕ → ℕ → ℤ → σ → Option (ℤ × σ)
  | 0, _, _, _ => none
  | fuel + 1, cursor, lastStatus, s =>
    if cursor < content.length then
      let rest := (content ++ [0]).drop cursor
      let newlineAt := strchr rest newline
      let lineLen := newlineAt.getD (cstr rest).length
      let line := strndup (content ++ [0]) cursor lineLen
      let cursor := cursor + (lineLen + if newlineAt.isSome then 1 else 0)
      if lineIsEmpty line then scriptLoop evaluate content fuel cursor lastStatus s
      else
        let (lastStatus, s) := evaluate line lastStatus s
        scriptLoop evaluate content fuel cursor lastStatus s
    else some (lastStatus, s)

def scriptLines (content : Bytes) : List Bytes :=
  (content.splitOn newline).filter fun line => !lineIsEmpty line

def evaluateAll (evaluate : Bytes → ℤ → σ → ℤ × σ) (lines : List Bytes) (lastStatus : ℤ) (s : σ) :
    ℤ × σ :=
  lines.foldl (fun (lastStatus, s) line => evaluate line lastStatus s) (lastStatus, s)

variable {evaluate : Bytes → ℤ → σ → ℤ × σ} {content line rest : Bytes} {fuel cursor : ℕ}
  {lastStatus : ℤ} {s : σ}

lemma strchr_none (h : newline ∉ cstr content) : strchr content newline = none :=
  List.idxOf?_eq_none_iff.mpr h

lemma strchr_some (hcstr : cstr content = line ++ newline :: rest) (hline : newline ∉ line) :
    strchr content newline = some line.length := by
  rw [strchr, hcstr]
  clear hcstr
  induction line with
  | nil => rfl
  | cons c line ih =>
    rw [List.mem_cons, not_or] at hline
    rw [List.cons_append, List.idxOf?_cons, ih hline.2, if_neg (by simpa using Ne.symm hline.1)]
    rfl

lemma strndup_cstr (n : ℕ) : strndup content cursor n = (cstr (content.drop cursor)).take n := by
  rw [strndup, cstr, cstr, List.take_takeWhile]

lemma scriptLoop_newline (hlt : cursor < content.length)
    (hcstr : cstr ((content ++ [0]).drop cursor) = line ++ newline :: rest)
    (hline : newline ∉ line) :
    scriptLoop evaluate content (fuel + 1) cursor lastStatus s =
      if lineIsEmpty line then
        scriptLoop evaluate content fuel (cursor + (line.length + 1)) lastStatus s
      else
        scriptLoop evaluate content fuel (cursor + (line.length + 1))
          (evaluate line lastStatus s).1 (evaluate line lastStatus s).2 := by
  rw [scriptLoop, if_pos hlt]
  simp only [strchr_some hcstr hline, strndup_cstr, hcstr, Option.getD_some, List.take_left]
  rfl

lemma scriptLoop_last (hlt : cursor < content.length)
    (hcstr : cstr ((content ++ [0]).drop cursor) = line) (hline : newline ∉ line) :
    scriptLoop evaluate content (fuel + 1) cursor lastStatus s =
      if lineIsEmpty line then
        scriptLoop evaluate content fuel (cursor + line.length) lastStatus s
      else
        scriptLoop evaluate content fuel (cursor + line.length)
          (evaluate line lastStatus s).1 (evaluate line lastStatus s).2 := by
  rw [scriptLoop, if_pos hlt]
  have hnone : strchr ((content ++ [0]).drop cursor) newline = none :=
    strchr_none (hcstr ▸ hline)
  simp only [hnone, strndup_cstr, hcstr, Option.getD_none, List.take_length]
  rfl

lemma scriptLoop_eq (hzero : (0 : UInt8) ∉ content) (hcursor : cursor ≤ content.length)
    (hfuel : content.length - cursor < fuel) :
    scriptLoop evaluate content fuel cursor lastStatus s =
      some (evaluateAll evaluate (scriptLines (content.drop cursor)) lastStatus s) := by
  induction fuel generalizing cursor lastStatus s with
  | zero => exact absurd hfuel (Nat.not_lt_zero _)
  | succ fuel ih =>
    have hrest : (0 : UInt8) ∉ content.drop cursor := fun h => hzero (List.mem_of_mem_drop h)
    have hcstr : cstr ((content ++ [0]).drop cursor) = content.drop cursor := by
      rw [List.drop_append_of_le_length hcursor]
      exact cstr_append_nul hrest []
    rcases hcursor.lt_or_eq with hlt | heq
    · by_cases hmem : newline ∈ content.drop cursor
      · obtain ⟨line, rest, hsplit, hline⟩ := List.eq_append_cons_of_mem hmem
        have hlength := congrArg List.length hsplit
        rw [List.length_drop, List.length_append, List.length_cons] at hlength
        have hdrop : content.drop (cursor + (line.length + 1)) = rest := by
          rw [← List.drop_drop, hsplit, List.drop_append]
          simp
        rw [scriptLoop_newline hlt (hcstr.trans hsplit) hline, ih (by omega) (by omega),
          ih (by omega) (by omega), hdrop, scriptLines, scriptLines, hsplit,
          List.splitOn_append_cons_self_of_not_mem hline, List.filter_cons]
        cases hempty : lineIsEmpty line <;> rfl
      · have hlength := List.length_drop (l := content) (i := cursor)
        have hnil : content.drop (cursor + (content.drop cursor).length) = [] :=
          List.drop_eq_nil_of_le (by omega)
        rw [scriptLoop_last hlt hcstr hmem, ih (by omega) (by omega), ih (by omega) (by omega),
          hnil, scriptLines, scriptLines, List.splitOn_eq_singleton hmem, List.filter_cons]
        cases hempty : lineIsEmpty (content.drop cursor) <;> rfl
    · rw [scriptLoop, if_neg heq.not_lt, heq, List.drop_length]
      rfl

lemma scriptLoop_nul {pre post : Bytes} (hpre : (0 : UInt8) ∉ pre) (hcursor : cursor ≤ pre.length) :
    scriptLoop evaluate (pre ++ 0 :: post) fuel cursor lastStatus s = none := by
  induction fuel generalizing cursor lastStatus s with
  | zero => rfl
  | succ fuel ih =>
    have hrest : (0 : UInt8) ∉ pre.drop cursor := fun h => hpre (List.mem_of_mem_drop h)
    have hlt : cursor < (pre ++ 0 :: post).length := by
      rw [List.length_append, List.length_cons]
      omega
    have hcstr : cstr ((pre ++ 0 :: post ++ [0]).drop cursor) = pre.drop cursor := by
      rw [List.append_assoc, List.drop_append_of_le_length hcursor]
      exact cstr_append_nul hrest _
    have hlength := List.length_drop (l := pre) (i := cursor)
    by_cases hmem : newline ∈ pre.drop cursor
    · obtain ⟨line, rest, hsplit, hline⟩ := List.eq_append_cons_of_mem hmem
      rw [hsplit, List.length_append, List.length_cons] at hlength
      rw [scriptLoop_newline hlt (hcstr.trans hsplit) hline, ih (by omega), ih (by omega), ite_self]
    · rw [scriptLoop_last hlt hcstr hmem, ih (by omega), ih (by omega), ite_self]

theorem scriptLoop_iff (content : Bytes) :
    (∀ (σ : Type) (evaluate : Bytes → ℤ → σ → ℤ × σ) (lastStatus : ℤ) (s : σ), ∃ fuel,
      scriptLoop evaluate content fuel 0 lastStatus s =
        some (evaluateAll evaluate (scriptLines content) lastStatus s)) ↔
      (0 : UInt8) ∉ content := by
  constructor
  · intro h hmem
    obtain ⟨pre, post, rfl, hpre⟩ := List.eq_append_cons_of_mem hmem
    obtain ⟨fuel, hfuel⟩ := h Unit (fun _ _ s => (0, s)) 0 ()
    rw [scriptLoop_nul hpre (Nat.zero_le _)] at hfuel
    cases hfuel
  · intro hzero σ evaluate lastStatus s
    exact ⟨content.length + 1, scriptLoop_eq hzero (Nat.zero_le _) (by omega)⟩

theorem scriptLoop_stuck :
    ¬∀ (content : Bytes) (σ : Type) (evaluate : Bytes → ℤ → σ → ℤ × σ) (lastStatus : ℤ) (s : σ),
      ∃ fuel, scriptLoop evaluate content fuel 0 lastStatus s =
        some (evaluateAll evaluate (scriptLines content) lastStatus s) := by
  intro h
  obtain ⟨fuel, hfuel⟩ := h [0] Unit (fun _ _ s => (0, s)) 0 ()
  have hnone : scriptLoop (fun _ _ s => (0, s)) ([] ++ 0 :: []) fuel 0 0 () = none :=
    scriptLoop_nul List.not_mem_nil le_rfl
  cases hfuel.symm.trans hnone

end SystemsLab.CommandLine
