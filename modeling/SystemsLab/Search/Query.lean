import SystemsLab.Search.Index
import SystemsLab.Effects.Ending

/-! Answering queries (`query.c`). Files are read without errors and in full buffers, and nothing
fails to be allocated, opened or written. -/

namespace SystemsLab.Search

open CLib

abbrev Emit := EStateM Unit Bytes

def emit (data : Bytes) : Emit Unit := modify (· ++ data)

def orError {α : Type} : Option α → Emit α
  | none => throw ()
  | some a => pure a

def emitBlankLine : Emit Unit := emit [newline]

def emitLineRef (lineNo startIdx : UInt32) : Emit Unit :=
  emit (writeU32 lineNo ++ ascii ":" ++ writeU32 startIdx ++ ascii " ")

def emitLineNo (lineNo : UInt32) : Emit Unit := emit (writeU32 lineNo ++ ascii " ")

abbrev Path := ℕ

/-- What the program keeps between and during queries. `cachePath` and `cacheCount` are the fields
of the lexicon entries of that name, by the index of the entry, and `files` the contents of the
files they name. `occOffsets` are the file offsets of the bucket files. -/
structure Session where
  index : Index
  cachePath : ℕ → Option Path
  cacheCount : ℕ → UInt32
  files : Path → Bytes
  nextPath : Path
  occOffsets : ℕ → ℕ
  lineBuf : Bytes
  out : Bytes

def freshSession (input : Bytes) : Session where
  index := indexBuild input
  cachePath _ := none
  cacheCount _ := 0
  files _ := []
  nextPath := 0
  occOffsets bucket := ((indexBuild input).occFiles bucket).length
  lineBuf := []
  out := []

abbrev SearchM := EStateM Unit Session

def output {α : Type} (m : Emit α) : SearchM α := fun s =>
  match m s.out with
  | .ok a out => .ok a { s with out := out }
  | .error e out => .error e { s with out := out }

structure CacheWriter where
  out : Bytes
  count : UInt32

def cacheRecordConsumer (writer : CacheWriter) (r : OccRecord) : Except Unit CacheWriter :=
  pure ⟨writer.out ++ r.bytes, writer.count + 1⟩

/-- What `scan_bucket_for_word` makes the cache writer write. -/
def cacheOf (index : Index) (wordId bucket : UInt32) : Except Unit CacheWriter :=
  scanFile (fun r => r.wordId == wordId) cacheRecordConsumer [] (index.occFiles bucket.toNat) ⟨[], 0⟩

def ensureWordCache (wordId bucket : UInt32) : SearchM Unit := do
  let s ← get
  if s.cachePath wordId.toNat = none then
    let path := s.nextPath
    modify fun s => { s with
      nextPath := path + 1
      occOffsets := Function.update s.occOffsets bucket.toNat
        (s.index.occFiles bucket.toNat).length }
    match cacheOf s.index wordId bucket with
    | .error e => throw e
    | .ok writer =>
      modify fun s => { s with
        files := Function.update s.files path writer.out
        cachePath := Function.update s.cachePath wordId.toNat (some path)
        cacheCount := Function.update s.cacheCount wordId.toNat writer.count }

/-- The file that `cache_path` of a word names. -/
def openCache (wordId : UInt32) : SearchM Bytes := do
  let s ← get
  match s.cachePath wordId.toNat with
  | none => throw ()
  | some path => pure (s.files path)

def scanCachedWord {α : Type} (file : Bytes) (fn : α → OccRecord → Emit α) (arg : α) : Emit α :=
  scanFile (fun _ => true) fn [] file arg

def streamWordConsumer (_ : Unit) (r : OccRecord) : Emit Unit := emitLineRef r.lineNo r.startIdx

def phraseHasValidEnd (lineBuf : Bytes) (startIdx phraseLen : ℕ) : Bool :=
  let stop := startIdx + phraseLen
  stop == lineBuf.length || isWordSep (lineBuf.getD stop 0)

/-- The fields of `PhraseMatch` that change: the line buffer and the number of the line in it. -/
structure PhraseMatch where
  lineBuf : Bytes
  cachedLineNo : UInt32

def phraseConsumer (index : Index) (phrase : Bytes) (mt : PhraseMatch) (r : OccRecord) :
    Emit PhraseMatch := do
  let mt ←
    if mt.cachedLineNo ≠ r.lineNo then do
      let line ← orError (indexReadLine index r.lineNo)
      pure ⟨line, r.lineNo⟩
    else pure mt
  let start := r.startIdx.toNat
  if start + phrase.length > mt.lineBuf.length then return mt
  else if !caseEqualBytes (mt.lineBuf.drop start) phrase phrase.length then return mt
  else if !phraseHasValidEnd mt.lineBuf start phrase.length then return mt
  else
    emitLineRef r.lineNo r.startIdx
    return mt

def lineNumberSourceOpenWord (wordId bucket : UInt32) : SearchM LineNumberSource := do
  ensureWordCache wordId bucket
  let file ← openCache wordId
  return .wordCache (FileReader.openFile file)

def lineNumberSourceOpenFile (file : Bytes) : LineNumberSource :=
  .lineFile (FileReader.openFile file)

def outputLineSource (source : LineNumberSource) : Emit Unit :=
  match _h : lineNumberSourceNext source with
  | none => throw ()
  | some none => emitBlankLine
  | some (some (lineNo, source')) => do
    emitLineNo lineNo
    outputLineSource source'
termination_by source.remaining
decreasing_by exact lineNumberSourceNext_lt _h

abbrev Advanced := Option (UInt32 × LineNumberSource)

def Advanced.remaining : Advanced → ℕ
  | none => 0
  | some (_, source) => source.remaining + 1

lemma advanced_remaining_lt {source : LineNumberSource} {next : Advanced}
    (h : lineNumberSourceNext source = some next) : next.remaining < source.remaining + 1 := by
  cases next with
  | none => exact Nat.succ_pos _
  | some p => exact Nat.succ_lt_succ (lineNumberSourceNext_lt h)

/-- The loop of `intersect_line_sources_to_file` and `intersect_line_sources_to_output`; `fn` is
what they do with a common line number. -/
def intersectFrom {α : Type} (fn : α → UInt32 → Emit α) (left right : Advanced) (arg : α) :
    Emit α :=
  match _hl : left, _hr : right with
  | some (a, l), some (c, r) =>
    if a = c then
      match _hn : lineNumberSourceNext l, _hm : lineNumberSourceNext r with
      | some left', some right' => do
        let arg ← fn arg a
        intersectFrom fn left' right' arg
      | _, _ => do
        let _ ← fn arg a
        throw ()
    else if a < c then
      match _hn : lineNumberSourceNext l with
      | none => throw ()
      | some left' => intersectFrom fn left' (some (c, r)) arg
    else
      match _hm : lineNumberSourceNext r with
      | none => throw ()
      | some right' => intersectFrom fn (some (a, l)) right' arg
  | _, _ => pure arg
termination_by left.remaining + right.remaining
decreasing_by
  · exact Nat.add_lt_add (advanced_remaining_lt _hn) (advanced_remaining_lt _hm)
  · exact Nat.add_lt_add_right (advanced_remaining_lt _hn) _
  · exact Nat.add_lt_add_left (advanced_remaining_lt _hm) _

def intersectLineSources {α : Type} (fn : α → UInt32 → Emit α) (left right : LineNumberSource)
    (arg : α) : Emit α := do
  let left ← orError (lineNumberSourceNext left)
  let right ← orError (lineNumberSourceNext right)
  intersectFrom fn left right arg

/-- The file of the common line numbers, and their number as a `u32`. -/
def intersectLineSourcesToFile (left right : LineNumberSource) : Emit (Bytes × UInt32) :=
  intersectLineSources (fun arg lineNo => pure (arg.1 ++ leBytes 4 lineNo.toNat, arg.2 + 1)) left
    right ([], 0)

def intersectLineSourcesToOutput (left right : LineNumberSource) : Emit UInt32 := do
  let matchCount ← intersectLineSources (fun count lineNo => do
    emitLineNo lineNo
    pure (count + 1)) left right 0
  emitBlankLine
  return matchCount

def insertWord (count : ℕ → UInt32) (word : UInt32 × UInt32) :
    List (UInt32 × UInt32) → List (UInt32 × UInt32)
  | [] => [word]
  | prev :: words =>
    if count prev.1.toNat ≤ count word.1.toNat then word :: prev :: words
    else prev :: insertWord count word words

def sortQueryWordsByCacheSize (count : ℕ → UInt32) (words : List (UInt32 × UInt32)) :
    List (UInt32 × UInt32) :=
  (words.foldl (fun sorted word => insertWord count word sorted) []).reverse

def findExisting (data : Bytes) : SearchM (Option (UInt32 × UInt32)) := do
  return lexiconFindExisting (← get).index.lexicon data

def handleSingle (query : Bytes) : SearchM Unit := do
  if query = [] then output emitBlankLine
  else
    match ← findExisting query with
    | none => output emitBlankLine
    | some (wordId, bucket) =>
      ensureWordCache wordId bucket
      let file ← openCache wordId
      output (scanCachedWord file streamWordConsumer ())
      output emitBlankLine

def phraseOf (query : Bytes) : Option Bytes :=
  if query.length < 2 ∨ query.head? ≠ some 34 ∨ query.getLast? ≠ some 34 then none
  else
    let phrase := query.tail.dropLast
    if phrase = [] ∨ phrase.head?.any isWordSep ∨ phrase.getLast?.any isWordSep ∨
      phrase.contains 34 then none
    else some phrase

def scanPhrase (file phrase : Bytes) : SearchM Unit := do
  let s ← get
  let mt ← output (scanCachedWord file (phraseConsumer s.index phrase) ⟨s.lineBuf, 0⟩)
  modify fun s => { s with lineBuf := mt.lineBuf }

def handlePhrase (query : Bytes) : SearchM Unit := do
  match phraseOf query with
  | none => output emitBlankLine
  | some phrase =>
    match ← findExisting (phrase.takeWhile (!isWordSep ·)) with
    | none => output emitBlankLine
    | some (wordId, bucket) =>
      ensureWordCache wordId bucket
      let file ← openCache wordId
      scanPhrase file phrase
      output emitBlankLine

def collectQueryWords (lexicon : Lexicon) (query : Bytes) : Option (List (UInt32 × UInt32)) :=
  (wordsFrom 0 query).foldlM (fun words start => do
    let word ← lexiconFindExisting lexicon start.2
    if words.any (fun w => w.1 == word.1) then some words else some (words ++ [word])) []

/-- The loop of `handle_multi` over the words from the third one on; `lines` is the file of the
lines that are left. -/
def multiStages (lines : Bytes) : List (UInt32 × UInt32) → SearchM Unit
  | [] => return ()
  | [(wordId, bucket)] => do
    let right ← lineNumberSourceOpenWord wordId bucket
    let _ ← output (intersectLineSourcesToOutput (lineNumberSourceOpenFile lines) right)
  | (wordId, bucket) :: words => do
    let right ← lineNumberSourceOpenWord wordId bucket
    let (lines, matchCount) ←
      output (intersectLineSourcesToFile (lineNumberSourceOpenFile lines) right)
    if matchCount = 0 then output emitBlankLine else multiStages lines words

def queryWords (query : Bytes) : SearchM (Option (List (UInt32 × UInt32))) := do
  return collectQueryWords (← get).index.lexicon query

def sortedWords (words : List (UInt32 × UInt32)) : SearchM (List (UInt32 × UInt32)) := do
  return sortQueryWordsByCacheSize (← get).cacheCount words

def handleMulti (query : Bytes) : SearchM Unit := do
  match ← queryWords query with
  | none => output emitBlankLine
  | some [] => output emitBlankLine
  | some words =>
    words.forM fun word => ensureWordCache word.1 word.2
    match ← sortedWords words with
    | [] => return ()
    | [(wordId, bucket)] =>
      let source ← lineNumberSourceOpenWord wordId bucket
      output (outputLineSource source)
    | (leftId, leftBucket) :: (rightId, rightBucket) :: words =>
      let left ← lineNumberSourceOpenWord leftId leftBucket
      let right ← lineNumberSourceOpenWord rightId rightBucket
      if words = [] then
        let _ ← output (intersectLineSourcesToOutput left right)
      else
        let (lines, matchCount) ← output (intersectLineSourcesToFile left right)
        if matchCount = 0 then output emitBlankLine else multiStages lines words

/-- The main loop of `handle_pattern`. -/
def patternFrom (left right : OccurrenceReader) : Emit Unit :=
  if _hb : left.hasItem = true ∧ right.hasItem = true then
    if left.current.lineNo < right.current.lineNo then
      match _h : skipLine left.current.lineNo left with
      | none => throw ()
      | some left' => patternFrom left' right
    else if left.current.lineNo > right.current.lineNo then
      match _h : skipLine right.current.lineNo right with
      | none => throw ()
      | some right' => patternFrom left right'
    else
      match _h : skipLine left.current.lineNo left,
        _h' : skipLineLast left.current.lineNo right right.current.startIdx with
      | some left', some (right', lastRight) => do
        if left.current.startIdx < lastRight then emitLineNo left.current.lineNo
        patternFrom left' right'
      | _, _ => throw ()
  else pure ()
termination_by left.remaining + right.remaining
decreasing_by
  · exact Nat.add_lt_add_right (skipLine_lt _hb.1 _h) _
  · exact Nat.add_lt_add_left (skipLine_lt _hb.2 _h) _
  · exact Nat.add_lt_add_of_lt_of_le (skipLine_lt _hb.1 _h) (skipLineLast_le _h')

def patternOf (query : Bytes) : Option (Bytes × Bytes) :=
  let left := query.takeWhile (· ≠ 42)
  let right := (query.dropWhile (· ≠ 42)).tail
  if left = [] ∨ right = [] ∨ right.contains 42 then none
  else if query.any isWordSep then none
  else some (left, right)

def handlePattern (query : Bytes) : SearchM Unit := do
  match patternOf query with
  | none => output emitBlankLine
  | some (left, right) =>
    match ← findExisting left, ← findExisting right with
    | some (leftId, leftBucket), some (rightId, rightBucket) =>
      ensureWordCache leftId leftBucket
      ensureWordCache rightId rightBucket
      let leftFile ← openCache leftId
      let rightFile ← openCache rightId
      let (_, leftReader) ← output (orError (occurrenceReaderNext (FileReader.openFile leftFile)))
      let (_, rightReader) ← output (orError (occurrenceReaderNext (FileReader.openFile rightFile)))
      output (patternFrom leftReader rightReader)
      output emitBlankLine
    | _, _ => output emitBlankLine

def queryScratchReset (s : Session) : Session := { s with lineBuf := [] }

def handleQuery (query : Bytes) : SearchM Unit := do
  modify queryScratchReset
  if query.contains 34 then handlePhrase query
  else if query.contains 42 then handlePattern query
  else
    match wordsFrom 0 query with
    | [] => output emitBlankLine
    | [(_, word)] => handleSingle word
    | _ => handleMulti query

end SystemsLab.Search
