import SystemsLab.CLib.Decimals
import SystemsLab.Streams.Segments

namespace SystemsLab.Matrices

open CLib Streams

def tab : UInt8 := 9
def newline : UInt8 := 10
def openBracket : UInt8 := 91
def closeBracket : UInt8 := 93

/-- `strncpy` of a whole string into a buffer. `none` is a write outside of it. -/
def putText (buffer : Bytes) (offset : ℕ) (text : Bytes) : Option Bytes :=
  if offset + text.length ≤ buffer.length then
    some (buffer.take offset ++ (text ++ buffer.drop (offset + text.length)))
  else none

/-- The first loop of `fputs_matrix`: the columns from `j` on add to the length of the row. -/
def rowStrLen (colSize : ℕ) : ℕ → List Bytes → ℕ → ℕ
  | _, [], len => len
  | j, text :: texts, len =>
    rowStrLen colSize (j + 1) texts (len + text.length + if j ≠ colSize - 1 then 1 else 0)

def putColumns (colSize : ℕ) : ℕ → List Bytes → Bytes → ℕ → Option (Bytes × ℕ)
  | _, [], rowStr, offset => some (rowStr, offset)
  | j, text :: texts, rowStr, offset => do
    let rowStr ← putText rowStr offset text
    let offset := offset + text.length
    if j ≠ colSize - 1 then
      let rowStr ← putText rowStr offset [tab]
      putColumns colSize (j + 1) texts rowStr (offset + 1)
    else putColumns colSize (j + 1) texts rowStr offset

/-- What `fputs_matrix` writes for a row. `garbage` is what the new buffer holds. -/
def fputsRow (garbage : ℕ → Bytes) (row : List UInt64) : Option Bytes := do
  let colStrings := row.map fun v => decimal v.toNat
  let rowStr ← putText (garbage (rowStrLen row.length 0 colStrings 3)) 0 [openBracket]
  let (rowStr, offset) ← putColumns row.length 0 colStrings rowStr 1
  let rowStr ← putText rowStr offset [closeBracket]
  putText rowStr (offset + 1) [newline]

def fputsMatrix (garbage : ℕ → Bytes) : List (List UInt64) → Option Bytes
  | [] => some []
  | row :: matrix => do
    let rowStr ← fputsRow garbage row
    let text ← fputsMatrix garbage matrix
    return rowStr ++ text

inductive VectorType
  | column
  | row

def fputsVector (garbage : ℕ → Bytes) (vector : List UInt64) : VectorType → Option Bytes
  | .column => fputsMatrix garbage (vector.map ([·]))
  | .row => fputsMatrix garbage [vector]

def columns : List Bytes → Bytes
  | [] => []
  | [text] => text
  | text :: text' :: texts => text ++ tab :: columns (text' :: texts)

def rowText (row : List UInt64) : Bytes :=
  openBracket :: (columns (row.map fun v => decimal v.toNat) ++ [closeBracket, newline])

def matrixText (matrix : List (List UInt64)) : Bytes := (matrix.map rowText).flatten

section Buffers

lemma length_behind (written : Bytes) (c : UInt8) : (written ++ [c]).length = written.length + 1 :=
  List.length_append

variable {written rest text : Bytes} {texts : List Bytes} {colSize j : ℕ}

lemma putText_front (written rest text : Bytes) (h : text.length ≤ rest.length) :
    putText (written ++ rest) written.length text = some ((written ++ text) ++ rest.drop text.length) := by
  rw [putText, if_pos (by rw [List.length_append]; omega), List.take_left, List.append_assoc,
    List.drop_append]
  rw [List.drop_eq_nil_of_le (Nat.le_add_right _ _), Nat.add_sub_cancel_left, List.nil_append]

lemma length_columns_cons (text : Bytes) (texts : List Bytes) :
    (columns (text :: texts)).length =
      text.length + (if texts = [] then 0 else 1) + (columns texts).length := by
  cases texts with
  | nil => rfl
  | cons text' texts =>
    rw [if_neg (List.cons_ne_nil _ _), columns, List.length_append, List.length_cons]
    omega

lemma last_column (h : j + (texts.length + 1) = colSize) : (j ≠ colSize - 1) = (texts ≠ []) := by
  apply propext
  rw [ne_eq, ne_eq, not_iff_not, ← List.length_eq_zero_iff]
  omega

lemma rowStrLen_eq (h : j + texts.length = colSize) (len : ℕ) :
    rowStrLen colSize j texts len = len + (columns texts).length := by
  induction texts generalizing j len with
  | nil => rfl
  | cons text texts ih =>
    rw [List.length_cons] at h
    rw [rowStrLen, ih (by omega), length_columns_cons]
    simp only [last_column h, ne_eq, ite_not]
    omega

lemma putColumns_eq (written rest : Bytes) (h : j + texts.length = colSize) (hroom : (columns texts).length ≤ rest.length) :
    putColumns colSize j texts (written ++ rest) written.length =
      some ((written ++ columns texts) ++ rest.drop (columns texts).length,
        (written ++ columns texts).length) := by
  induction texts generalizing j written rest with
  | nil =>
    rw [putColumns, columns, List.append_nil]
    rfl
  | cons text texts ih =>
    rw [List.length_cons] at h
    rw [length_columns_cons] at hroom
    have hlen : written.length + text.length = (written ++ text).length := List.length_append.symm
    rw [putColumns, putText_front _ _ _ (by omega), hlen]
    simp only [last_column h, Option.bind_eq_bind, Option.bind_some]
    by_cases htexts : texts = []
    · rw [htexts, if_neg (not_not.mpr rfl)]
      rfl
    · rw [if_neg htexts] at hroom
      have htab : [tab].length ≤ (rest.drop text.length).length := by
        rw [List.length_drop, List.length_singleton]
        omega
      have hmore : (columns texts).length ≤ ((rest.drop text.length).drop [tab].length).length := by
        rw [List.drop_drop, List.length_drop, List.length_singleton]
        omega
      have hnext := ih ((written ++ text) ++ [tab]) ((rest.drop text.length).drop [tab].length)
        (show j + 1 + texts.length = colSize by omega) hmore
      obtain ⟨text', texts, rfl⟩ := List.exists_cons_of_ne_nil htexts
      rw [if_pos htexts, putText_front _ _ _ htab]
      simp only [Option.bind_some]
      rw [length_behind] at hnext
      refine hnext.trans ?_
      simp only [columns, List.append_assoc, List.singleton_append, List.drop_drop, List.length_append,
        List.length_cons, List.length_nil]
      rw [show text.length + (0 + 1) + (columns (text' :: texts)).length =
        text.length + ((columns (text' :: texts)).length + 1) by omega]

lemma fputsRow_eq (garbage : ℕ → Bytes) (hgarbage : ∀ n, (garbage n).length = n) (row : List UInt64) :
    fputsRow garbage row = some (rowText row) := by
  have hlen : (garbage (rowStrLen row.length 0 (row.map fun v => decimal v.toNat) 3)).length =
      3 + (columns (row.map fun v => decimal v.toNat)).length := by
    rw [hgarbage, rowStrLen_eq]
    rw [List.length_map, Nat.zero_add]
  rw [fputsRow, rowText]
  generalize garbage (rowStrLen row.length 0 (row.map fun v => decimal v.toNat) 3) = buffer at hlen ⊢
  generalize hcols : row.map (fun v => decimal v.toNat) = cols at hlen ⊢
  have hcount : 0 + cols.length = row.length := by rw [← hcols, List.length_map, Nat.zero_add]
  have hopen : putText buffer 0 [openBracket] = some ([openBracket] ++ buffer.drop 1) :=
    putText_front [] buffer _ (by rw [List.length_singleton]; omega)
  have hcolumns : putColumns row.length 0 cols ([openBracket] ++ buffer.drop 1) 1 = _ :=
    putColumns_eq [openBracket] (buffer.drop 1) hcount (by rw [List.length_drop]; omega)
  have hclose := putText_front ([openBracket] ++ columns cols)
    ((buffer.drop 1).drop (columns cols).length) [closeBracket]
    (by rw [List.length_drop, List.length_drop, List.length_singleton]; omega)
  have hnewline := putText_front ([openBracket] ++ columns cols ++ [closeBracket])
    (((buffer.drop 1).drop (columns cols).length).drop 1) [newline]
    (by rw [List.length_drop, List.length_drop, List.length_drop, List.length_singleton]; omega)
  have hend : (((buffer.drop 1).drop (columns cols).length).drop 1).drop 1 = [] := by
    apply List.drop_eq_nil_of_le
    rw [List.length_drop, List.length_drop, List.length_drop]
    omega
  rw [length_behind] at hnewline
  rw [List.length_singleton] at hclose
  simp only [Option.bind_eq_bind, hopen, Option.bind_some, hcolumns, hclose, hnewline]
  rw [List.length_singleton, hend]
  simp only [List.append_assoc, List.append_nil, List.singleton_append]
  rfl

lemma fputsMatrix_eq (garbage : ℕ → Bytes) (hgarbage : ∀ n, (garbage n).length = n)
    (matrix : List (List UInt64)) : fputsMatrix garbage matrix = some (matrixText matrix) := by
  induction matrix with
  | nil => rfl
  | cons row matrix ih =>
    rw [fputsMatrix, fputsRow_eq garbage hgarbage, ih]
    rfl

end Buffers

section Reading

variable {row : List UInt64} {matrix matrix' : List (List UInt64)} {texts : List Bytes} {text rest : Bytes}

def isNewline (c : UInt8) : Bool := c == newline

def endsColumn (c : UInt8) : Bool := c == tab || c == closeBracket

def readRow (line : Bytes) : List ℕ :=
  (((segments endsColumn (line.drop 1)).map (·.takeWhile isDigit)).filter (· ≠ [])).map digitsValue

def readMatrix (text : Bytes) : List (List ℕ) := (segments isNewline text).map readRow

lemma not_end_of_digit {c : UInt8} (h : isDigit c = true) : endsColumn c = false ∧ isNewline c = false := by
  constructor
  · cases hc : endsColumn c with
    | false => rfl
    | true =>
      rcases Bool.or_eq_true_iff.mp hc with hc | hc
      all_goals
        rw [beq_iff_eq.mp hc] at h
        exact absurd h (by decide)
  · cases hc : isNewline c with
    | false => rfl
    | true =>
      rw [beq_iff_eq.mp hc] at h
      exact absurd h (by decide)

lemma segments_column {ends : UInt8 → Bool} {c : UInt8} (hdigits : ∀ b ∈ text, ends b = false)
    (hc : ends c = true) : segments ends (text ++ c :: rest) = (text ++ [c]) :: segments ends rest :=
  segments_append_front hdigits (segments_end hc)

lemma segments_columns (htexts : ∀ text ∈ texts, Digits text) (hne : texts ≠ []) :
    ((segments endsColumn (columns texts ++ [closeBracket, newline])).map (·.takeWhile isDigit)).filter
      (· ≠ []) = texts := by
  induction texts with
  | nil => exact absurd rfl hne
  | cons text texts ih =>
    obtain ⟨htext, htexts⟩ := List.forall_mem_cons.mp htexts
    have hends : ∀ b ∈ text, endsColumn b = false := fun b hb => (not_end_of_digit (htext.isDigit b hb)).1
    have htake (c : UInt8) (hc : isDigit c = false) : (text ++ [c]).takeWhile isDigit = text := by
      rw [List.takeWhile_append_of_pos htext.isDigit, List.takeWhile_cons_of_neg (by rw [hc]; decide),
        List.append_nil]
    have hkeep : decide (text ≠ []) = true := decide_eq_true htext.ne_nil
    cases texts with
    | nil =>
      have hlast : segments endsColumn [newline] = [[newline]] := rfl
      rw [columns, segments_column hends rfl, hlast, List.map_cons, htake _ (by decide), List.filter_cons,
        if_pos hkeep]
      rfl
    | cons text' texts =>
      rw [columns, List.append_assoc, List.cons_append, segments_column hends rfl, List.map_cons,
        htake _ (by decide), List.filter_cons, if_pos hkeep, ih htexts (List.cons_ne_nil _ _)]

lemma readRow_rowText (row : List UInt64) : readRow (rowText row) = row.map UInt64.toNat := by
  rw [rowText, readRow, List.drop_succ_cons, List.drop_zero]
  cases row with
  | nil => rfl
  | cons v row =>
    rw [segments_columns]
    · rw [List.map_map]
      exact List.map_congr_left fun v _ => digitsValue_decimal v.toNat
    · intro text htext
      obtain ⟨v, -, rfl⟩ := List.mem_map.mp htext
      exact digits_decimal _
    · exact List.cons_ne_nil _ _

lemma isNewline_columns (hrow : ∀ text ∈ texts, Digits text) : ∀ c ∈ columns texts, isNewline c = false := by
  induction texts with
  | nil => exact nofun
  | cons text texts ih =>
    obtain ⟨htext, htexts⟩ := List.forall_mem_cons.mp hrow
    have hdigits : ∀ c ∈ text, isNewline c = false := fun c hc => (not_end_of_digit (htext.isDigit c hc)).2
    cases texts with
    | nil => exact hdigits
    | cons text' texts =>
      intro c hc
      rw [columns, List.mem_append, List.mem_cons] at hc
      rcases hc with hc | rfl | hc
      · exact hdigits c hc
      · rfl
      · exact ih htexts c hc

lemma segments_matrixText (matrix : List (List UInt64)) :
    segments isNewline (matrixText matrix) = matrix.map rowText := by
  induction matrix with
  | nil => rfl
  | cons row matrix ih =>
    have hfront : ∀ c ∈ openBracket :: (columns (row.map fun v => decimal v.toNat) ++ [closeBracket]),
        isNewline c = false := by
      intro c hc
      rw [List.mem_cons, List.mem_append, List.mem_singleton] at hc
      rcases hc with rfl | hc | rfl
      · rfl
      · refine isNewline_columns (fun text htext => ?_) c hc
        obtain ⟨v, -, rfl⟩ := List.mem_map.mp htext
        exact digits_decimal _
      · rfl
    have hsplit : matrixText (row :: matrix) =
        (openBracket :: (columns (row.map fun v => decimal v.toNat) ++ [closeBracket])) ++
          newline :: matrixText matrix := by
      rw [matrixText, List.map_cons, List.flatten_cons, rowText, matrixText]
      simp only [List.cons_append, List.append_assoc, List.nil_append]
    rw [hsplit, segments_column hfront rfl, ih, List.map_cons, rowText]
    simp only [List.cons_append, List.append_assoc, List.nil_append]

lemma readMatrix_matrixText (matrix : List (List UInt64)) :
    readMatrix (matrixText matrix) = matrix.map (List.map UInt64.toNat) := by
  rw [readMatrix, segments_matrixText, List.map_map]
  exact List.map_congr_left fun row _ => readRow_rowText row

lemma matrixText_inj (h : matrixText matrix = matrixText matrix') : matrix = matrix' := by
  have hread := readMatrix_matrixText matrix
  rw [h, readMatrix_matrixText] at hread
  have hinj : Function.Injective (List.map (List.map UInt64.toNat)) :=
    List.map_injective_iff.mpr (List.map_injective_iff.mpr fun v w => UInt64.toNat_inj.mp)
  exact (hinj hread).symm

end Reading

theorem matrix_file_round_trip (garbage : ℕ → Bytes) (hgarbage : ∀ n, (garbage n).length = n)
    (matrix : List (List UInt64)) :
    ∃ text, fputsMatrix garbage matrix = some text ∧ readMatrix text = matrix.map (List.map UInt64.toNat) ∧
      ∀ matrix', fputsMatrix garbage matrix' = some text → matrix' = matrix := by
  refine ⟨matrixText matrix, fputsMatrix_eq garbage hgarbage matrix, readMatrix_matrixText matrix,
    fun matrix' h => ?_⟩
  rw [fputsMatrix_eq garbage hgarbage] at h
  exact matrixText_inj (Option.some.inj h)

theorem matrix_file_round_trip_digits :
    ∃ text, fputsMatrix (fun n => List.replicate n 0) [[1, 23], [4, 0]] = some text ∧
      readMatrix text = [[1, 23], [4, 0]] := by
  obtain ⟨text, htext, hread, -⟩ := matrix_file_round_trip (fun n => List.replicate n 0)
    (fun n => List.length_replicate) [[1, 23], [4, 0]]
  exact ⟨text, htext, hread⟩

end SystemsLab.Matrices
