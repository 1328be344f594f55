import SystemsLab.Search.Lexicon
import SystemsLab.Search.Records

/-! The index that the text search builds from its input file (`index.c`). -/

namespace SystemsLab.Search

open CLib

/-- `lineFile` and `occFiles` are the contents of the temporary files for the line offsets and for
the occurrence records of each bucket. -/
structure Index where
  input : Bytes
  lineFile : Bytes
  occFiles : ℕ → Bytes
  lexicon : Lexicon
  lineCount : UInt32

/-- The body of the loop of `process_line`. -/
def processWord (lineNo : UInt32) (index : Index) (start : ℕ × Bytes) : Index :=
  let (lexicon, wordId, bucket) := lexiconFindOrAdd index.lexicon start.2
  let record : OccRecord := ⟨wordId, lineNo, UInt32.ofNat start.1⟩
  { index with
    lexicon := lexicon
    occFiles := Function.update index.occFiles bucket.toNat
      (index.occFiles bucket.toNat ++ record.bytes) }

def processLine (index : Index) (line : Bytes) (lineNo : UInt32) : Index :=
  (wordsFrom 0 line).foldl (processWord lineNo) index

def indexInit (input : Bytes) : Index := ⟨input, leBytes 8 0, fun _ => [], lexiconInit, 0⟩

/-- The body of the loop of `index_build`, with `next_line_offset`. -/
def buildLine (build : Index × UInt64) (line : Bytes × Bool) : Index × UInt64 :=
  let nextLineOffset := build.2 + UInt64.ofNat line.1.length + (if line.2 then 1 else 0)
  let index := { build.1 with lineCount := build.1.lineCount + 1 }
  let index := processLine index line.1 index.lineCount
  ({ index with lineFile := index.lineFile ++ leBytes 8 nextLineOffset.toNat }, nextLineOffset)

def indexBuild (input : Bytes) : Index :=
  ((linesOf input).foldl buildLine (indexInit input, 0)).1

def preadFull (file : Bytes) (len offset : ℕ) : Option Bytes :=
  let data := (file.drop offset).take len
  if data.length = len then some data else none

def readLineOffset (index : Index) (offsetIndex : UInt32) : Option UInt64 :=
  (preadFull index.lineFile 8 (offsetIndex.toNat * 8)).map fun b => UInt64.ofNat (ofLeBytes b)

def indexReadLine (index : Index) (lineNo : UInt32) : Option Bytes := do
  if lineNo = 0 ∨ lineNo > index.lineCount then none
  else
    let start ← readLineOffset index (lineNo - 1)
    let stop ← readLineOffset index lineNo
    if stop < start then none
    else
      let line ← preadFull index.input (stop - start).toNat start.toNat
      if line.getLast? = some newline then some line.dropLast else some line

structure Index.Sound (index : Index) : Prop where
  lexicon : index.lexicon.Sound
  records : ∀ bucket, ∃ rs : List OccRecord, index.occFiles bucket = rs.flatMap OccRecord.bytes

lemma processWord_sound {index : Index} (h : index.Sound) (lineNo : UInt32) (start : ℕ × Bytes) :
    (processWord lineNo index start).Sound where
  lexicon := h.lexicon.findOrAdd start.2
  records bucket := by
    simp only [processWord]
    by_cases hb : bucket = (lexiconFindOrAdd index.lexicon start.2).2.2.toNat
    · obtain ⟨rs, hrs⟩ := h.records bucket
      refine ⟨rs ++ [⟨(lexiconFindOrAdd index.lexicon start.2).2.1, lineNo, UInt32.ofNat start.1⟩],
        ?_⟩
      rw [← hb, Function.update_self, hrs, List.flatMap_append, List.flatMap_singleton]
    · rw [Function.update_of_ne hb]
      exact h.records bucket

lemma processLine_sound {index : Index} (h : index.Sound) (line : Bytes) (lineNo : UInt32) :
    (processLine index line lineNo).Sound := by
  rw [processLine]
  generalize wordsFrom 0 line = words
  induction words generalizing index with
  | nil => exact h
  | cons start words ih => exact ih (processWord_sound h lineNo start)

lemma buildLine_sound {build : Index × UInt64} (h : build.1.Sound) (line : Bytes × Bool) :
    (buildLine build line).1.Sound := by
  have hcounted : ({ build.1 with lineCount := build.1.lineCount + 1 } : Index).Sound :=
    ⟨h.lexicon, h.records⟩
  have hline := processLine_sound hcounted line.1 (build.1.lineCount + 1)
  exact ⟨hline.lexicon, hline.records⟩

lemma indexBuild_sound (input : Bytes) : (indexBuild input).Sound := by
  rw [indexBuild]
  have hinit : ((indexInit input, (0 : UInt64)) : Index × UInt64).1.Sound :=
    ⟨lexiconInit_sound, fun _ => ⟨[], rfl⟩⟩
  generalize (indexInit input, (0 : UInt64)) = build at hinit
  generalize linesOf input = lines
  induction lines generalizing build with
  | nil => exact hinit
  | cons line lines ih => exact ih _ (buildLine_sound hinit line)

end SystemsLab.Search
