import SystemsLab.Search.Index
import SystemsLab.Search.LineReader
import Mathlib.Data.List.Infix

namespace SystemsLab.Search

open CLib

/-- The loop of `index_build`. -/
def buildFrom (reader : LineReader) (build : Index × UInt64) : Index :=
  let r := lineReaderReadLine reader
  if _h : r.status = true then buildFrom r.reader (buildLine build (r.line, r.hadNewline))
  else build.1
termination_by reader.rest.length
decreasing_by exact lineReaderReadLine_lt _h

/-- `index_build` when `read` returns the pieces `chunks` of the input. -/
def indexBuildFrom (input : Bytes) (chunks : List Bytes) : Index :=
  buildFrom (lineReaderInit chunks) (indexInit input, 0)

lemma buildFrom_eq (reader : LineReader) (build : Index × UInt64) :
    buildFrom reader build = ((readLines reader).foldl buildLine build).1 := by
  fun_induction buildFrom reader build with
  | case1 reader build r hstatus ih =>
    rw [readLines, dif_pos hstatus, ih]
    rfl
  | case2 reader build r hstatus =>
    rw [readLines, dif_neg hstatus]
    rfl

lemma indexBuildFrom_eq {input : Bytes} {chunks : List Bytes} (hne : [] ∉ chunks)
    (hflat : chunks.flatten = input) : indexBuildFrom input chunks = indexBuild input := by
  have hlines : readLines (lineReaderInit chunks) = linesOf input := by
    rw [← hflat]
    exact readLines_eq hne
  rw [indexBuildFrom, buildFrom_eq, hlines, indexBuild]

def rawLine (line : Bytes × Bool) : Bytes := line.1 ++ if line.2 then [newline] else []

lemma flatMap_rawLine (s : Bytes) : (linesOf s).flatMap rawLine = s := by
  induction hn : s.length using Nat.strong_induction_on generalizing s with
  | h n ih =>
    cases hd : s.dropWhile (· ≠ newline) with
    | nil =>
      rw [linesOf_end hd]
      split_ifs with hs
      · exact hs.symm
      · rw [List.flatMap_singleton, rawLine]
        exact List.append_nil s
    | cons c tail =>
      have hle := List.length_dropWhile_le (· ≠ newline) s
      rw [hd, List.length_cons] at hle
      have hs := List.takeWhile_append_dropWhile (p := (· ≠ newline)) (l := s)
      rw [hd, head_newline hd] at hs
      rw [linesOf_cut hd, List.flatMap_cons, ih tail.length (by omega) tail rfl, rawLine, if_pos rfl,
        List.append_assoc]
      exact hs

lemma newline_not_mem {s : Bytes} {line : Bytes × Bool} (h : line ∈ linesOf s) :
    newline ∉ line.1 := by
  induction hn : s.length using Nat.strong_induction_on generalizing s with
  | h n ih =>
    cases hd : s.dropWhile (· ≠ newline) with
    | nil =>
      rw [linesOf_end hd] at h
      split_ifs at h
      · cases h
      · obtain rfl := List.mem_singleton.mp h
        intro hmem
        rw [List.dropWhile_eq_nil_iff] at hd
        exact absurd rfl (of_decide_eq_true (hd newline hmem))
    | cons c tail =>
      have hle := List.length_dropWhile_le (· ≠ newline) s
      rw [hd, List.length_cons] at hle
      rw [linesOf_cut hd, List.mem_cons] at h
      rcases h with rfl | h
      · intro hmem
        have hne := List.mem_takeWhile_imp (p := (· ≠ newline)) hmem
        exact absurd rfl (of_decide_eq_true hne)
      · exact ih tail.length (by omega) h rfl

lemma dropLast_rawLine {line : Bytes × Bool} (h : newline ∉ line.1) :
    (if (rawLine line).getLast? = some newline then (rawLine line).dropLast else rawLine line) =
      line.1 := by
  obtain ⟨bytes, hadNewline⟩ := line
  cases hadNewline with
  | true =>
    have hraw : rawLine (bytes, true) = bytes ++ [newline] := rfl
    rw [hraw, List.getLast?_concat, if_pos rfl, List.dropLast_concat]
  | false =>
    have hraw : rawLine (bytes, false) = bytes := List.append_nil _
    rw [hraw, if_neg fun hlast => h (List.mem_of_getLast? hlast)]

def offsets (lines : List (Bytes × Bool)) : List ℕ :=
  lines.inits.map fun done => (done.flatMap rawLine).length

lemma offsets_concat (lines : List (Bytes × Bool)) (line : Bytes × Bool) :
    offsets (lines ++ [line]) = offsets lines ++ [((lines ++ [line]).flatMap rawLine).length] := by
  rw [offsets, List.inits_append, List.map_append]
  rfl

lemma length_offsets (lines : List (Bytes × Bool)) : (offsets lines).length = lines.length + 1 := by
  rw [offsets, List.length_map, List.length_inits]

lemma getElem_offsets {lines : List (Bytes × Bool)} {k : ℕ} (h : k < (offsets lines).length) :
    (offsets lines)[k] = ((lines.take k).flatMap rawLine).length := by
  simp only [offsets, List.getElem_map, List.getElem_inits]

def processLines (index : Index) (lines : List (Bytes × UInt32)) : Index :=
  lines.foldl (fun index line => processLine index line.1 line.2) index

def numbered (lines : List Bytes) : List (Bytes × UInt32) :=
  lines.mapIdx fun i line => (line, UInt32.ofNat (i + 1))

lemma numbered_concat (lines : List Bytes) (line : Bytes) :
    numbered (lines ++ [line]) =
      numbered lines ++ [(line, UInt32.ofNat (lines.length + 1))] :=
  List.mapIdx_concat

lemma processLine_eq (index : Index) (lineFile : Bytes) (lineCount : UInt32) (line : Bytes)
    (lineNo : UInt32) :
    processLine { index with lineFile := lineFile, lineCount := lineCount } line lineNo =
      { processLine index line lineNo with lineFile := lineFile, lineCount := lineCount } := by
  rw [processLine, processLine]
  generalize wordsFrom 0 line = words
  induction words generalizing index with
  | nil => rfl
  | cons start words ih => exact ih (processWord lineNo index start)

lemma processLine_input (index : Index) (line : Bytes) (lineNo : UInt32) :
    (processLine index line lineNo).input = index.input := by
  rw [processLine]
  generalize wordsFrom 0 line = words
  induction words generalizing index with
  | nil => rfl
  | cons start words ih => exact ih (processWord lineNo index start)

lemma processLines_input (index : Index) (lines : List (Bytes × UInt32)) :
    (processLines index lines).input = index.input := by
  induction lines generalizing index with
  | nil => rfl
  | cons line lines ih => exact (ih _).trans (processLine_input index line.1 line.2)

def lineTable (lines : List (Bytes × Bool)) : Bytes :=
  (offsets lines).flatMap fun offset => leBytes 8 (UInt64.ofNat offset).toNat

def indexAfter (input : Bytes) (lines : List (Bytes × Bool)) : Index :=
  { processLines (indexInit input) (numbered (lines.map Prod.fst)) with
    lineFile := lineTable lines
    lineCount := UInt32.ofNat lines.length }

lemma ofNat_length_rawLine (offset : UInt64) (line : Bytes × Bool) :
    offset + UInt64.ofNat (rawLine line).length =
      offset + UInt64.ofNat line.1.length + if line.2 = true then 1 else 0 := by
  obtain ⟨bytes, hadNewline⟩ := line
  cases hadNewline with
  | true =>
    have hraw : (rawLine (bytes, true)).length = bytes.length + 1 := List.length_append
    rw [hraw, UInt64.ofNat_add, UInt64.add_assoc]
    rfl
  | false =>
    have hraw : rawLine (bytes, false) = bytes := List.append_nil _
    rw [hraw]
    exact (UInt64.add_zero _).symm

lemma buildLine_indexAfter (input : Bytes) (lines : List (Bytes × Bool)) (line : Bytes × Bool) :
    buildLine (indexAfter input lines, UInt64.ofNat (lines.flatMap rawLine).length) line =
      (indexAfter input (lines ++ [line]),
        UInt64.ofNat ((lines ++ [line]).flatMap rawLine).length) := by
  have hnext : UInt64.ofNat (lines.flatMap rawLine).length + UInt64.ofNat line.1.length +
      (if line.2 = true then 1 else 0) =
        UInt64.ofNat ((lines ++ [line]).flatMap rawLine).length := by
    rw [List.flatMap_append, List.flatMap_singleton, List.length_append, UInt64.ofNat_add,
      ofNat_length_rawLine]
  have hcount : UInt32.ofNat lines.length + 1 = UInt32.ofNat (lines ++ [line]).length := by
    rw [List.length_append, UInt32.ofNat_add]
    rfl
  have hwords : processLines (indexInit input) (numbered ((lines ++ [line]).map Prod.fst)) =
      processLine (processLines (indexInit input) (numbered (lines.map Prod.fst))) line.1
        (UInt32.ofNat (lines ++ [line]).length) := by
    rw [List.map_append, List.map_singleton, numbered_concat, processLines, List.foldl_append,
      List.length_map, List.length_append]
    rfl
  have hfile : lineTable (lines ++ [line]) =
      lineTable lines ++
        leBytes 8 (UInt64.ofNat ((lines ++ [line]).flatMap rawLine).length).toNat := by
    rw [lineTable, offsets_concat, List.flatMap_append, List.flatMap_singleton, lineTable]
  rw [buildLine]
  simp only [hnext, indexAfter, processLine_eq, hcount, hwords, hfile]

lemma indexBuild_eq (input : Bytes) : indexBuild input = indexAfter input (linesOf input) := by
  have hfold : ∀ lines : List (Bytes × Bool), lines.foldl buildLine (indexInit input, 0) =
      (indexAfter input lines, UInt64.ofNat (lines.flatMap rawLine).length) := by
    intro lines
    induction lines using List.reverseRecOn with
    | nil => rfl
    | append_singleton lines line ih =>
      rw [List.foldl_append, ih]
      exact buildLine_indexAfter input lines line
  rw [indexBuild, hfold]

section ReadBack

variable {input : Bytes} {lines : List (Bytes × Bool)}

lemma length_take_rawLine_le (hinput : lines.flatMap rawLine = input) (k : ℕ) :
    ((lines.take k).flatMap rawLine).length ≤ input.length := by
  rw [← hinput]
  exact ((List.take_prefix k lines).flatMap rawLine).length_le

lemma preadFull_eq {file pre data post : Bytes} {len offset : ℕ}
    (hfile : file = pre ++ (data ++ post)) (hoffset : offset = pre.length)
    (hlen : len = data.length) : preadFull file len offset = some data := by
  have hdata : (file.drop offset).take len = data := by
    rw [hfile, hoffset, List.drop_left, hlen, List.take_left]
  rw [preadFull]
  simp only [hdata]
  rw [if_pos hlen.symm]

lemma readLineOffset_eq {k : UInt32} (hk : k.toNat ≤ lines.length) :
    readLineOffset (indexAfter input lines) k =
      some (UInt64.ofNat ((lines.take k.toNat).flatMap rawLine).length) := by
  have hlt : k.toNat < (offsets lines).length := by
    rw [length_offsets]
    omega
  have hblock : ∀ offset : ℕ, (leBytes 8 (UInt64.ofNat offset).toNat).length = 8 :=
    fun offset => length_leBytes 8 _
  have hpre := length_blocks hblock ((offsets lines).take k.toNat)
  rw [List.length_take, Nat.min_eq_left hlt.le] at hpre
  have hfile : lineTable lines = _ := congrArg (List.flatMap _)
    ((List.take_append_drop k.toNat (offsets lines)).symm.trans
      (congrArg _ (List.drop_eq_getElem_cons hlt)))
  rw [List.flatMap_append, List.flatMap_cons] at hfile
  rw [readLineOffset, indexAfter,
    preadFull_eq hfile (by rw [hpre, Nat.mul_comm]) (hblock _).symm, Option.map_some,
    ofLeBytes_of_lt (UInt64.toNat_lt _), UInt64.ofNat_toNat, getElem_offsets]

lemma preadFull_line (hinput : lines.flatMap rawLine = input) {j : ℕ} (hj : j < lines.length) :
    preadFull input (rawLine lines[j]).length ((lines.take j).flatMap rawLine).length =
      some (rawLine lines[j]) := by
  have hsplit : input = (lines.take j).flatMap rawLine ++
      (rawLine lines[j] ++ (lines.drop (j + 1)).flatMap rawLine) := by
    rw [← List.flatMap_cons, ← List.drop_eq_getElem_cons hj, ← List.flatMap_append,
      List.take_append_drop, hinput]
  exact preadFull_eq hsplit rfl rfl

lemma ofNat_sub_ofNat {low high : ℕ} (hle : low ≤ high) (hhigh : high < 2 ^ 64) :
    ¬ UInt64.ofNat high < UInt64.ofNat low ∧
      (UInt64.ofNat high - UInt64.ofNat low).toNat = high - low := by
  have hlow : (UInt64.ofNat low).toNat = low := UInt64.toNat_ofNat_of_lt' (hle.trans_lt hhigh)
  have hhigh' : (UInt64.ofNat high).toNat = high := UInt64.toNat_ofNat_of_lt' hhigh
  have hnot : ¬ UInt64.ofNat high < UInt64.ofNat low := by
    rw [UInt64.lt_iff_toNat_lt, hlow, hhigh']
    exact not_lt.mpr hle
  refine ⟨hnot, ?_⟩
  rw [UInt64.toNat_sub_of_le _ _ (UInt64.not_lt.mp hnot), hlow, hhigh']

lemma indexReadLine_eq (hinput : lines.flatMap rawLine = input) (hsize : input.length < 2 ^ 64)
    (hcount : lines.length < 2 ^ 32) (hlines : ∀ line ∈ lines, newline ∉ line.1) (k : UInt32) :
    indexReadLine (indexAfter input lines) k =
      if k = 0 then none else (lines.map Prod.fst)[k.toNat - 1]? := by
  have hn : (UInt32.ofNat lines.length).toNat = lines.length := UInt32.toNat_ofNat_of_lt' hcount
  by_cases h0 : k = 0
  · rw [indexReadLine, if_pos (Or.inl h0), if_pos h0]
  have hpos : 0 < k.toNat := by
    rw [Nat.pos_iff_ne_zero]
    intro hk
    exact h0 (UInt32.toNat_inj.mp hk)
  rw [if_neg h0]
  by_cases hk : k.toNat ≤ lines.length
  · obtain ⟨j, hj⟩ := Nat.exists_eq_add_of_lt hpos
    have hj : k.toNat = j + 1 := by omega
    have hlt : j < lines.length := by omega
    have hone : (1 : UInt32) ≤ k := by
      rw [UInt32.le_iff_toNat_le]
      exact hpos
    have hpred : (k - 1).toNat = j := by
      rw [UInt32.toNat_sub_of_le _ _ hone, hj]
      rfl
    have hstart : ((lines.take j).flatMap rawLine).length < 2 ^ 64 :=
      (length_take_rawLine_le hinput j).trans_lt hsize
    have hstop : ((lines.take (j + 1)).flatMap rawLine).length < 2 ^ 64 :=
      (length_take_rawLine_le hinput (j + 1)).trans_lt hsize
    have hnext : ((lines.take (j + 1)).flatMap rawLine).length =
        ((lines.take j).flatMap rawLine).length + (rawLine lines[j]).length := by
      rw [List.take_succ_eq_append_getElem hlt, List.flatMap_append, List.flatMap_singleton,
        List.length_append]
    have hguard : ¬(k = 0 ∨ k > (indexAfter input lines).lineCount) := by
      rintro (hk0 | hgt)
      · exact h0 hk0
      · have hgt := UInt32.lt_iff_toNat_lt.mp hgt
        rw [indexAfter, hn] at hgt
        omega
    obtain ⟨hle, hdiff⟩ := ofNat_sub_ofNat (hnext ▸ Nat.le_add_right _ _) hstop
    have hsub := hdiff.trans (Nat.sub_eq_of_eq_add' hnext)
    have hread : preadFull (indexAfter input lines).input (rawLine lines[j]).length
        ((lines.take j).flatMap rawLine).length = some (rawLine lines[j]) := by
      have hkeep : (indexAfter input lines).input = input := processLines_input _ _
      rw [hkeep, preadFull_line hinput hlt]
    rw [indexReadLine, if_neg hguard, readLineOffset_eq (by omega), readLineOffset_eq hk, hpred, hj]
    simp only [Option.bind_eq_bind, Option.bind_some, if_neg hle, hsub,
      UInt64.toNat_ofNat_of_lt' hstart, hread]
    rw [← apply_ite some, dropLast_rawLine (hlines _ (List.getElem_mem hlt)), Nat.add_sub_cancel,
      List.getElem?_map, List.getElem?_eq_getElem hlt]
    rfl
  · have hgt : k > (indexAfter input lines).lineCount := by
      rw [gt_iff_lt, UInt32.lt_iff_toNat_lt, indexAfter, hn]
      omega
    rw [indexReadLine, if_pos (Or.inr hgt), List.getElem?_eq_none]
    rw [List.length_map]
    omega

end ReadBack

/-- The size of a file is an `off_t`. -/
structure InputFile where
  bytes : Bytes
  size_lt : bytes.length < 2 ^ 63

theorem offset_table_agrees (file : InputFile) (chunks : List Bytes) (hne : [] ∉ chunks)
    (hflat : chunks.flatten = file.bytes) (hcount : (cutLines file.bytes).length < 2 ^ 32) :
    (readLines (lineReaderInit chunks)).map Prod.fst = cutLines file.bytes ∧
      (indexBuildFrom file.bytes chunks).lineCount.toNat = (cutLines file.bytes).length ∧
      (indexBuildFrom file.bytes chunks).lexicon =
        (processLines (indexInit file.bytes) (numbered (cutLines file.bytes))).lexicon ∧
      (indexBuildFrom file.bytes chunks).occFiles =
        (processLines (indexInit file.bytes) (numbered (cutLines file.bytes))).occFiles ∧
      ∀ k : UInt32, indexReadLine (indexBuildFrom file.bytes chunks) k =
        if k = 0 then none else (cutLines file.bytes)[k.toNat - 1]? := by
  have hlines : readLines (lineReaderInit chunks) = linesOf file.bytes := by
    rw [← hflat]
    exact readLines_eq hne
  have hindex : indexBuildFrom file.bytes chunks = indexAfter file.bytes (linesOf file.bytes) := by
    rw [indexBuildFrom_eq hne hflat, indexBuild_eq]
  have hlength : (linesOf file.bytes).length = (cutLines file.bytes).length := by
    rw [← map_fst_linesOf, List.length_map]
  have hsize : file.bytes.length < 2 ^ 64 := 
    file.size_lt.trans (Nat.pow_lt_pow_right (by decide) (by decide))
  rw [hlines, hindex, ← map_fst_linesOf]
  refine ⟨rfl, ?_, rfl, rfl, fun k => ?_⟩
  · rw [List.length_map]
    exact UInt32.toNat_ofNat_of_lt' (hlength ▸ hcount)
  · exact indexReadLine_eq (flatMap_rawLine _) hsize (hlength ▸ hcount)
      (fun line => newline_not_mem) k

theorem offset_table_agrees_empty_line :
    indexReadLine (indexBuildFrom (ascii "a\n\nb") [ascii "a\n", ascii "\nb"]) 2 = some [] ∧
      indexReadLine (indexBuildFrom (ascii "a\n\nb") [ascii "a\n", ascii "\nb"]) 3 =
        some (ascii "b") := by
  have h := offset_table_agrees ⟨ascii "a\n\nb", by decide⟩ [ascii "a\n", ascii "\nb"]
    (by decide) rfl (by decide)
  have hread := h.2.2.2.2
  exact ⟨hread 2, hread 3⟩

end SystemsLab.Search
