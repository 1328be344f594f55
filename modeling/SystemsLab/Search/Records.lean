import SystemsLab.Search.Text
import Mathlib.Data.List.TakeDrop

/-! Files of fixed-size records (`query.c`), read in full buffers until the end of the file. -/

namespace SystemsLab.Search

open CLib

structure OccRecord where
  wordId : UInt32
  lineNo : UInt32
  startIdx : UInt32
deriving DecidableEq

def occRecordSize : ℕ := 12
def occRecordCap : ℕ := 1024
def lineNumberSize : ℕ := 4
def lineNumberCap : ℕ := 2048

def OccRecord.bytes (r : OccRecord) : Bytes :=
  leBytes 4 r.wordId.toNat ++ leBytes 4 r.lineNo.toNat ++ leBytes 4 r.startIdx.toNat

def u32At (b : Bytes) (offset : ℕ) : UInt32 := UInt32.ofNat (ofLeBytes ((b.drop offset).take 4))

def OccRecord.ofBytes (b : Bytes) : OccRecord := ⟨u32At b 0, u32At b 4, u32At b 8⟩

def lineNumberOfBytes (b : Bytes) : UInt32 := u32At b 0

/-- A buffer seen as an array of items of `size` bytes. -/
def itemsOf {α : Type} (size : ℕ) (ofBytes : Bytes → α) (b : Bytes) : List α :=
  (List.range (b.length / size)).map fun i => ofBytes ((b.drop (size * i)).take size)

section Blocks

variable {α : Type} {block : α → Bytes} {size : ℕ}

lemma length_blocks (hsize : ∀ a, (block a).length = size) (as : List α) :
    (as.flatMap block).length = size * as.length := by
  induction as with
  | nil => rfl
  | cons a as ih =>
    rw [List.flatMap_cons, List.length_append, hsize, ih, List.length_cons, Nat.mul_succ,
      Nat.add_comm]

lemma take_drop_blocks (hsize : ∀ a, (block a).length = size) (as : List α) (n : ℕ) :
    (as.flatMap block).take (size * n) = (as.take n).flatMap block ∧
      (as.flatMap block).drop (size * n) = (as.drop n).flatMap block := by
  induction n generalizing as with
  | zero => exact ⟨rfl, rfl⟩
  | succ n ih =>
    cases as with
    | nil => exact ⟨List.take_nil, List.drop_nil⟩
    | cons a as =>
      obtain ⟨htake, hdrop⟩ := ih as
      have hn : size * (n + 1) = (block a).length + size * n := by
        rw [hsize, Nat.mul_succ, Nat.add_comm]
      constructor
      · rw [List.flatMap_cons, hn, List.take_length_add_append, htake]
        rfl
      · rw [List.flatMap_cons, hn, List.drop_length_add_append, hdrop]
        rfl

end Blocks

/-- The loop of `scan_bucket_for_word` and `scan_cached_word`, with `keep` for the test of the word
id: `carry` is the incomplete record at the front of the buffer, `file` what is left to read. -/
def scanFile {m : Type → Type} {α : Type} [Monad m] [MonadExceptOf Unit m] (keep : OccRecord → Bool)
    (fn : α → OccRecord → m α) (carry file : Bytes) (arg : α) : m α :=
  match _h : file.take (occRecordSize * occRecordCap - carry.length) with
  | [] => if carry = [] then pure arg else throw ()
  | c :: got => do
    let buffer := carry ++ c :: got
    let usable := buffer.length / occRecordSize * occRecordSize
    let arg ← (itemsOf occRecordSize OccRecord.ofBytes (buffer.take usable)).foldlM
      (fun arg r => if keep r then fn arg r else pure arg) arg
    scanFile keep fn (buffer.drop usable)
      (file.drop (occRecordSize * occRecordCap - carry.length)) arg
termination_by file.length
decreasing_by
  have hl := congrArg List.length _h
  rw [List.length_take, List.length_cons] at hl
  rw [List.length_drop]
  omega

/-- A reader of items of one size: the bytes that are left in the file, the items that are left in
the buffer, and the current item if `hasItem`. -/
structure FileReader (α : Type) where
  file : Bytes
  buffer : List α
  current : α
  hasItem : Bool

namespace FileReader

variable {α : Type}

def openFile [Inhabited α] (file : Bytes) : FileReader α := ⟨file, [], default, false⟩

/-- The next item: `none` is the error of an incomplete item, and `false` the end of the file. -/
def next (size cap : ℕ) (ofBytes : Bytes → α) (r : FileReader α) : Option (Bool × FileReader α) :=
  match r.buffer with
  | item :: buffer => some (true, { r with buffer := buffer, current := item, hasItem := true })
  | [] =>
    let got := r.file.take (size * cap)
    if got = [] then some (false, { r with hasItem := false })
    else if got.length % size ≠ 0 then none
    else
      match itemsOf size ofBytes got with
      | [] => none
      | item :: buffer => some (true, ⟨r.file.drop (size * cap), buffer, item, true⟩)

def remaining (r : FileReader α) : ℕ := r.file.length + r.buffer.length + r.hasItem.toNat

lemma length_itemsOf_le (size : ℕ) (ofBytes : Bytes → α) (b : Bytes) :
    (itemsOf size ofBytes b).length ≤ b.length := by
  rw [itemsOf, List.length_map, List.length_range]
  exact Nat.div_le_self _ _

lemma next_spec {size cap : ℕ} {ofBytes : Bytes → α} {r r' : FileReader α} {b : Bool}
    (h : r.next size cap ofBytes = some (b, r')) :
    r'.hasItem = b ∧
      r'.file.length + r'.buffer.length + b.toNat ≤ r.file.length + r.buffer.length := by
  rw [next] at h
  cases hb : r.buffer with
  | cons item buffer =>
    simp only [hb, Option.some.injEq, Prod.mk.injEq] at h
    obtain ⟨rfl, rfl⟩ := h
    exact ⟨rfl, le_rfl⟩
  | nil =>
    simp only [hb] at h
    split_ifs at h with he hmod
    · simp only [Option.some.injEq, Prod.mk.injEq] at h
      obtain ⟨rfl, rfl⟩ := h
      simp
    · cases hi : itemsOf size ofBytes (r.file.take (size * cap)) with
      | nil =>
        rw [hi] at h
        cases h
      | cons item buffer =>
        rw [hi] at h
        simp only [Option.some.injEq, Prod.mk.injEq] at h
        obtain ⟨rfl, rfl⟩ := h
        have hle := length_itemsOf_le size ofBytes (r.file.take (size * cap))
        rw [hi, List.length_cons, List.length_take] at hle
        refine ⟨rfl, ?_⟩
        simp only [List.length_drop, List.length_nil, Bool.toNat_true]
        omega

lemma remaining_next {size cap : ℕ} {ofBytes : Bytes → α} {r r' : FileReader α} {b : Bool}
    (h : r.next size cap ofBytes = some (b, r')) (hr : r.hasItem = true) :
    r'.remaining < r.remaining := by
  obtain ⟨hb, hle⟩ := next_spec h
  rw [remaining, remaining, hb, hr, Bool.toNat_true]
  omega

end FileReader

abbrev OccurrenceReader := FileReader OccRecord
abbrev LineNumberReader := FileReader UInt32

instance : Inhabited OccRecord := ⟨⟨0, 0, 0⟩⟩

def occurrenceReaderNext (r : OccurrenceReader) : Option (Bool × OccurrenceReader) :=
  r.next occRecordSize occRecordCap OccRecord.ofBytes

def lineNumberReaderNext (r : LineNumberReader) : Option (Bool × LineNumberReader) :=
  r.next lineNumberSize lineNumberCap lineNumberOfBytes

/-- Past all records on line `lineNo`. This is `skip_occurrence_line_group`, and the loops of the
same form in `line_number_source_next` and `handle_pattern`. -/
def skipLine (lineNo : UInt32) (r : OccurrenceReader) : Option OccurrenceReader :=
  if _h : r.hasItem = true ∧ r.current.lineNo = lineNo then
    match _hn : occurrenceReaderNext r with
    | none => none
    | some (_, r') => skipLine lineNo r'
  else some r
termination_by r.remaining
decreasing_by exact FileReader.remaining_next _hn _h.1

def skipLineLast (lineNo : UInt32) (r : OccurrenceReader) (last : UInt32) :
    Option (OccurrenceReader × UInt32) :=
  if _h : r.hasItem = true ∧ r.current.lineNo = lineNo then
    match _hn : occurrenceReaderNext r with
    | none => none
    | some (_, r') => skipLineLast lineNo r' r.current.startIdx
  else some (r, last)
termination_by r.remaining
decreasing_by exact FileReader.remaining_next _hn _h.1

lemma skipLine_le {lineNo : UInt32} {r r' : OccurrenceReader} (h : skipLine lineNo r = some r') :
    r'.remaining ≤ r.remaining := by
  fun_induction skipLine lineNo r with
  | case1 r hc hn => cases h
  | case2 r hc b r₁ hn ih => exact (ih h).trans (FileReader.remaining_next hn hc.1).le
  | case3 r hc =>
    cases h
    exact le_rfl

lemma skipLine_lt {r r' : OccurrenceReader} (hr : r.hasItem = true)
    (h : skipLine r.current.lineNo r = some r') : r'.remaining < r.remaining := by
  rw [skipLine, dif_pos ⟨hr, rfl⟩] at h
  split at h
  · cases h
  · next hn => exact lt_of_le_of_lt (skipLine_le h) (FileReader.remaining_next hn hr)

lemma skipLineLast_le {lineNo last last' : UInt32} {r r' : OccurrenceReader}
    (h : skipLineLast lineNo r last = some (r', last')) : r'.remaining ≤ r.remaining := by
  fun_induction skipLineLast lineNo r last with
  | case1 r last hc hn => cases h
  | case2 r last hc b r₁ hn ih => exact (ih h).trans (FileReader.remaining_next hn hc.1).le
  | case3 r last hc =>
    cases h
    exact le_rfl

inductive LineNumberSource
  | wordCache (reader : OccurrenceReader)
  | lineFile (reader : LineNumberReader)

def LineNumberSource.remaining : LineNumberSource → ℕ
  | .wordCache r => r.remaining
  | .lineFile r => r.file.length + r.buffer.length

def currentRecord (r : OccurrenceReader) : Option (Bool × OccurrenceReader) :=
  if r.hasItem then some (true, r) else occurrenceReaderNext r

/-- The next line number and the source after it: `none` is an error, `some none` the end. A word
cache yields the line of its current record once, and goes on to the next line. -/
def lineNumberSourceNext : LineNumberSource → Option (Option (UInt32 × LineNumberSource))
  | .wordCache r => do
    let (hasRecord, r) ← currentRecord r
    if hasRecord then
      let r' ← skipLine r.current.lineNo r
      some (some (r.current.lineNo, .wordCache r'))
    else some none
  | .lineFile r => do
    let (hasValue, r) ← lineNumberReaderNext r
    if hasValue then some (some (r.current, .lineFile r)) else some none

lemma lineNumberSourceNext_lt {source source' : LineNumberSource} {lineNo : UInt32}
    (h : lineNumberSourceNext source = some (some (lineNo, source'))) :
    source'.remaining < source.remaining := by
  cases source with
  | wordCache r =>
    simp only [lineNumberSourceNext, Option.bind_eq_bind, Option.bind_eq_some_iff] at h
    obtain ⟨⟨b, r₁⟩, h₁, h⟩ := h
    have hr₁ : r₁.hasItem = b ∧ r₁.remaining ≤ r.remaining := by
      rw [currentRecord] at h₁
      split_ifs at h₁ with hr
      · cases h₁
        exact ⟨hr, le_rfl⟩
      · obtain ⟨hb, hle⟩ := FileReader.next_spec h₁
        refine ⟨hb, ?_⟩
        rw [FileReader.remaining, FileReader.remaining, hb]
        omega
    split_ifs at h with hb
    · obtain ⟨r₂, h₂, he⟩ := Option.bind_eq_some_iff.mp h
      simp only [Option.some.injEq, Prod.mk.injEq] at he
      obtain ⟨-, rfl⟩ := he
      exact lt_of_lt_of_le (skipLine_lt (hr₁.1.trans hb) h₂) hr₁.2
    · cases h
  | lineFile r =>
    simp only [lineNumberSourceNext, Option.bind_eq_bind, Option.bind_eq_some_iff] at h
    obtain ⟨⟨b, r₁⟩, h₁, h⟩ := h
    split_ifs at h with hb
    · simp only [Option.some.injEq, Prod.mk.injEq] at h
      obtain ⟨-, rfl⟩ := h
      obtain ⟨-, hle⟩ := FileReader.next_spec h₁
      rw [show b = true from hb, Bool.toNat_true] at hle
      exact hle
    · cases h

end SystemsLab.Search
