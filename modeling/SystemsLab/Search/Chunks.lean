import SystemsLab.Search.Postings

namespace SystemsLab.Search

open CLib Effects

/-- An open file: the bytes that are left, and by how much the coming calls of `read` may go over
one byte. When the cuts have run out, `read` returns what it is asked for. -/
structure Descriptor where
  left : Bytes
  cuts : List ℕ

namespace Descriptor

def count (d : Descriptor) (n : ℕ) : ℕ := (d.cuts.map fun cut => min n (cut + 1)).headD n

def read (d : Descriptor) (n : ℕ) : Bytes × Descriptor :=
  (d.left.take (d.count n), ⟨d.left.drop (d.count n), d.cuts.tail⟩)

variable {d : Descriptor} {n : ℕ}

lemma count_pos (hn : 0 < n) : 0 < d.count n := by
  rw [count]
  cases d.cuts with
  | nil => exact hn
  | cons cut cuts => exact lt_min hn (Nat.succ_pos cut)

lemma read_append (d : Descriptor) (n : ℕ) : (d.read n).1 ++ (d.read n).2.left = d.left :=
  List.take_append_drop _ _

lemma read_nil (hn : 0 < n) (h : (d.read n).1 = []) : d.left = [] := by
  rcases List.take_eq_nil_iff.mp h with hzero | hnil
  · exact absurd hzero (count_pos hn).ne'
  · exact hnil

lemma read_shorter (h : (d.read n).1 ≠ []) : (d.read n).2.left.length < d.left.length := by
  have hlen := congrArg List.length (d.read_append n)
  have hpos := List.length_pos_iff.mpr h
  rw [List.length_append] at hlen
  omega

def chunks (n : ℕ) (d : Descriptor) : List Bytes :=
  if _h : (d.read n).1 = [] then [] else (d.read n).1 :: chunks n (d.read n).2
termination_by d.left.length
decreasing_by exact read_shorter _h

lemma flatten_chunks (hn : 0 < n) (d : Descriptor) : (d.chunks n).flatten = d.left := by
  induction hlen : d.left.length using Nat.strong_induction_on generalizing d with
  | _ len ih =>
    rw [chunks]
    split_ifs with h
    · exact (read_nil hn h).symm
    · rw [List.flatten_cons, ih _ (hlen ▸ read_shorter h) _ rfl, read_append]

end Descriptor

section Scan

variable {m : Type → Type} {α : Type} [Monad m] [MonadExceptOf Unit m]

/-- The loop of `scan_bucket_for_word` and `scan_cached_word`, from an open file. -/
def scanChunks (keep : OccRecord → Bool) (fn : α → OccRecord → m α) (carry : Bytes)
    (d : Descriptor) (arg : α) : m α :=
  let n := occRecordSize * occRecordCap - carry.length
  if _h : (d.read n).1 = [] then
    if carry = [] then pure arg else throw ()
  else do
    let buffer := carry ++ (d.read n).1
    let usable := buffer.length / occRecordSize * occRecordSize
    let arg ← (itemsOf occRecordSize OccRecord.ofBytes (buffer.take usable)).foldlM
      (fun arg r => if keep r then fn arg r else pure arg) arg
    scanChunks keep fn (buffer.drop usable) (d.read n).2 arg
termination_by d.left.length
decreasing_by exact Descriptor.read_shorter _h

lemma length_drop_usable (buffer : Bytes) :
    (buffer.drop (buffer.length / occRecordSize * occRecordSize)).length < occRecordSize := by
  rw [List.length_drop]
  have hmod := Nat.mod_lt buffer.length (by decide : 0 < occRecordSize)
  have hdiv := Nat.div_add_mod' buffer.length occRecordSize
  omega

lemma scanChunks_pieces (keep : OccRecord → Bool) (fn : α → OccRecord → m α) {carry : Bytes}
    (hcarry : carry.length < occRecordSize) (d : Descriptor) :
    ∃ pieces, pieces.flatten = d.left ∧
      ∀ arg, scanChunks keep fn carry d arg = scanPieces keep fn carry pieces arg := by
  induction hlen : d.left.length using Nat.strong_induction_on generalizing d carry with
  | _ len ih =>
    have hn : 0 < occRecordSize * occRecordCap - carry.length := by
      have hsize : occRecordSize < occRecordSize * occRecordCap := by decide
      omega
    by_cases h : (d.read (occRecordSize * occRecordCap - carry.length)).1 = []
    · refine ⟨[], (Descriptor.read_nil hn h).symm, fun arg => ?_⟩
      rw [scanChunks, dif_pos h, scanPieces]
    · obtain ⟨pieces, hpieces, hscan⟩ := ih _ (hlen ▸ Descriptor.read_shorter h)
        (length_drop_usable (carry ++ (d.read (occRecordSize * occRecordCap - carry.length)).1)) _ rfl
      refine ⟨(d.read (occRecordSize * occRecordCap - carry.length)).1 :: pieces, ?_, fun arg => ?_⟩
      · rw [List.flatten_cons, hpieces, Descriptor.read_append]
      · rw [scanChunks, dif_neg h, scanPieces]
        exact congrArg _ (funext hscan)

lemma scanChunks_uncut (keep : OccRecord → Bool) (fn : α → OccRecord → m α) (carry file : Bytes)
    (arg : α) : scanChunks keep fn carry ⟨file, []⟩ arg = scanFile keep fn carry file arg := by
  induction hlen : file.length using Nat.strong_induction_on generalizing carry file arg with
  | _ len ih =>
    by_cases h : (Descriptor.read ⟨file, []⟩ (occRecordSize * occRecordCap - carry.length)).1 = []
    · have hread : file.take (occRecordSize * occRecordCap - carry.length) = [] := h
      rw [scanChunks, dif_pos h, scanFile]
      symm
      split
      · rfl
      · next c got hgot =>
        rw [hread] at hgot
        cases hgot
    · have hshort := Descriptor.read_shorter h
      rw [scanChunks, dif_neg h, scanFile]
      split
      · next hnil => exact absurd hnil h
      · next c got hgot =>
        have hread : (Descriptor.read ⟨file, []⟩
            (occRecordSize * occRecordCap - carry.length)).1 = c :: got := hgot
        simp only [hread]
        exact congrArg _ (funext fun arg => ih _ (hlen ▸ hshort) _ _ _ rfl)

end Scan

def noteRecord (_ : Unit) (r : OccRecord) : EStateM Unit (List OccRecord) Unit :=
  modify (· ++ [r])

def scannedRecords (d : Descriptor) : List OccRecord × Bool :=
  match scanChunks (fun _ => true) noteRecord [] d () [] with
  | .ok _ records => (records, false)
  | .error _ records => (records, true)

structure ChunkReader where
  fd : Descriptor
  buffer : List OccRecord
  current : OccRecord
  hasRecord : Bool

namespace ChunkReader

def openPath (d : Descriptor) : ChunkReader := ⟨d, [], default, false⟩

/-- `occurrence_reader_next`: `none` is a failure, `false` the end of the file. -/
def next (r : ChunkReader) : Option (Bool × ChunkReader) :=
  match r.buffer with
  | record :: buffer => some (true, { r with buffer, current := record, hasRecord := true })
  | [] =>
    let (got, fd) := r.fd.read (occRecordSize * occRecordCap)
    if got = [] then some (false, { r with fd, hasRecord := false })
    else if got.length % occRecordSize ≠ 0 then none
    else
      match itemsOf occRecordSize OccRecord.ofBytes got with
      | [] => none
      | record :: buffer => some (true, ⟨fd, buffer, record, true⟩)

lemma next_uncut (r : OccurrenceReader) :
    (ChunkReader.mk ⟨r.file, []⟩ r.buffer r.current r.hasItem).next =
      (occurrenceReaderNext r).map fun answer =>
        (answer.1, ⟨⟨answer.2.file, []⟩, answer.2.buffer, answer.2.current, answer.2.hasItem⟩) := by
  obtain ⟨file, buffer, current, hasItem⟩ := r
  cases buffer with
  | cons record buffer => rfl
  | nil =>
    simp only [next, occurrenceReaderNext, FileReader.next, Descriptor.read, Descriptor.count,
      List.map_nil, List.headD_nil, List.tail_nil]
    split_ifs with hnil hmod
    · have hfile : file.drop (occRecordSize * occRecordCap) = file := by
        rcases List.take_eq_nil_iff.mp hnil with hzero | rfl
        · exact absurd hzero (by decide)
        · rfl
      simp [hfile]
    · rfl
    · cases itemsOf occRecordSize OccRecord.ofBytes (file.take (occRecordSize * occRecordCap)) with
      | nil => rfl
      | cons record buffer => rfl

variable {r r' : ChunkReader}

lemma next_shorter (h : r.next = some (true, r')) :
    r'.fd.left.length + r'.buffer.length < r.fd.left.length + r.buffer.length := by
  obtain ⟨fd, buffer, current, hasRecord⟩ := r
  cases buffer with
  | cons record buffer =>
    simp only [next, Option.some.injEq, Prod.mk.injEq, true_and] at h
    subst h
    simp
  | nil =>
    simp only [next] at h
    split_ifs at h with hnil hmod
    · cases h
    · cases hitems : itemsOf occRecordSize OccRecord.ofBytes
          (fd.read (occRecordSize * occRecordCap)).1 with
      | nil =>
        rw [hitems] at h
        cases h
      | cons record buffer =>
        rw [hitems] at h
        simp only [Option.some.injEq, Prod.mk.injEq, true_and] at h
        subst h
        have hcount := congrArg List.length (fd.read_append (occRecordSize * occRecordCap))
        have hle := FileReader.length_itemsOf_le occRecordSize OccRecord.ofBytes
          (fd.read (occRecordSize * occRecordCap)).1
        rw [List.length_append] at hcount
        rw [hitems, List.length_cons] at hle
        simp only [List.length_nil]
        omega

def records (r : ChunkReader) : List OccRecord × Bool :=
  match _h : r.next with
  | none => ([], true)
  | some (false, _) => ([], false)
  | some (true, r') => (r'.current :: (records r').1, (records r').2)
termination_by r.fd.left.length + r.buffer.length
decreasing_by all_goals exact next_shorter _h

lemma records_none (h : r.next = none) : r.records = ([], true) := by
  rw [records]
  split <;> simp_all

lemma records_end (h : r.next = some (false, r')) : r.records = ([], false) := by
  rw [records]
  split <;> simp_all

lemma records_next (h : r.next = some (true, r')) :
    r.records = (r'.current :: r'.records.1, r'.records.2) := by
  rw [records]
  split <;> simp_all

end ChunkReader

def yields : List Bytes → List OccRecord × Bool
  | [] => ([], false)
  | chunk :: rest =>
    if chunk.length % occRecordSize ≠ 0 then ([], true)
    else (itemsOf occRecordSize OccRecord.ofBytes chunk ++ (yields rest).1, (yields rest).2)

def WholeRecords (chunks : List Bytes) : Prop :=
  ∀ chunk ∈ chunks, chunk.length % occRecordSize = 0

variable {chunks : List Bytes} {rs : List OccRecord} {chunk : Bytes}

lemma ChunkReader.records_eq (r : ChunkReader) :
    r.records = (r.buffer ++ (yields (r.fd.chunks (occRecordSize * occRecordCap))).1,
      (yields (r.fd.chunks (occRecordSize * occRecordCap))).2) := by
  induction hlen : r.fd.left.length + r.buffer.length using Nat.strong_induction_on
    generalizing r with
  | _ len ih =>
    obtain ⟨fd, buffer, current, hasRecord⟩ := r
    cases buffer with
    | cons record buffer =>
      have hnext : (ChunkReader.mk fd (record :: buffer) current hasRecord).next =
          some (true, ⟨fd, buffer, record, true⟩) := rfl
      rw [records_next hnext, ih _ (hlen ▸ next_shorter hnext) _ rfl]
      rfl
    | nil =>
      rw [Descriptor.chunks]
      split_ifs with hnil
      · have hnext : (ChunkReader.mk fd [] current hasRecord).next =
            some (false, ⟨_, [], current, false⟩) := if_pos hnil
        rw [records_end hnext]
        rfl
      · by_cases hmod : (fd.read (occRecordSize * occRecordCap)).1.length % occRecordSize ≠ 0
        · have hnext : (ChunkReader.mk fd [] current hasRecord).next = none := by
            simp [next, hnil, hmod]
          rw [records_none hnext, yields, if_pos hmod]
          rfl
        · have hcount : (itemsOf occRecordSize OccRecord.ofBytes
              (fd.read (occRecordSize * occRecordCap)).1).length ≠ 0 := by
            have hpos := List.length_pos_iff.mpr hnil
            have hdvd := Nat.dvd_of_mod_eq_zero (not_not.mp hmod)
            rw [itemsOf, List.length_map, List.length_range]
            exact (Nat.div_pos (Nat.le_of_dvd hpos hdvd) (by decide)).ne'
          obtain ⟨record, buffer, hitems⟩ := List.exists_cons_of_length_pos (Nat.pos_of_ne_zero hcount)
          have hnext : (ChunkReader.mk fd [] current hasRecord).next =
              some (true, ⟨(fd.read (occRecordSize * occRecordCap)).2, buffer, record, true⟩) := by
            simp [next, hnil, hmod, hitems]
          rw [records_next hnext, ih _ (hlen ▸ next_shorter hnext) _ rfl, yields, if_neg hmod, hitems]
          rfl

lemma yields_whole (h : WholeRecords chunks) (hfile : chunks.flatten = rs.flatMap OccRecord.bytes) :
    yields chunks = (rs, false) := by
  induction chunks generalizing rs with
  | nil =>
    have hlen := congrArg List.length hfile
    rw [length_records, List.flatten_nil, List.length_nil] at hlen
    have hrs : rs = [] := by
      rw [← List.length_eq_zero_iff]
      simp only [occRecordSize] at hlen
      omega
    rw [hrs, yields]
  | cons chunk rest ih =>
    have hmod := h chunk List.mem_cons_self
    obtain ⟨k, hk⟩ := Nat.dvd_of_mod_eq_zero hmod
    obtain ⟨htake, hdrop⟩ := take_drop_records rs k
    rw [← hfile, List.flatten_cons, ← hk, List.take_left] at htake
    rw [← hfile, List.flatten_cons, ← hk, List.drop_left] at hdrop
    have hrest := ih (fun c hc => h c (List.mem_cons_of_mem chunk hc)) hdrop
    rw [yields, if_neg (by simp [hmod]), hrest, htake, itemsOf_records, List.take_append_drop]

lemma whole_of_yields (h : (yields chunks).2 = false) : WholeRecords chunks := by
  induction chunks with
  | nil =>
    intro chunk hmem
    cases hmem
  | cons chunk rest ih =>
    rw [yields] at h
    split_ifs at h with hmod
    intro c hc
    rcases List.mem_cons.mp hc with rfl | hrest
    · exact not_not.mp hmod
    · exact ih h c hrest

lemma foldlM_noteRecord (rs acc : List OccRecord) :
    rs.foldlM noteRecord () acc = .ok () (acc ++ rs) := by
  induction rs generalizing acc with
  | nil => rw [List.append_nil]; rfl
  | cons r rs ih =>
    have hrest := ih (acc ++ [r])
    rwa [List.append_assoc, List.singleton_append] at hrest

lemma scannedRecords_eq (rs : List OccRecord) (cuts : List ℕ) :
    scannedRecords ⟨rs.flatMap OccRecord.bytes, cuts⟩ = (rs, false) := by
  have hcarry : ([] : Bytes).length < occRecordSize := by decide
  obtain ⟨pieces, hpieces, hscan⟩ := scanChunks_pieces (fun _ => true) noteRecord hcarry
    ⟨rs.flatMap OccRecord.bytes, cuts⟩
  rw [scannedRecords, hscan, scanPieces_records _ _ _ _ hpieces (by decide), List.filter_true,
    foldlM_noteRecord, List.nil_append]

def ReadersAgree (file : Bytes) (cuts cuts' : List ℕ) : Prop :=
  (ChunkReader.openPath ⟨file, cuts'⟩).records = scannedRecords ⟨file, cuts⟩

lemma readersAgree_records (rs : List OccRecord) (cuts cuts' : List ℕ) :
    ReadersAgree (rs.flatMap OccRecord.bytes) cuts cuts' ↔
      WholeRecords (Descriptor.chunks (occRecordSize * occRecordCap)
        ⟨rs.flatMap OccRecord.bytes, cuts'⟩) := by
  rw [ReadersAgree, scannedRecords_eq, ChunkReader.records_eq]
  constructor
  · intro h
    exact whole_of_yields (congrArg Prod.snd h)
  · intro h
    have hflat := Descriptor.flatten_chunks (n := occRecordSize * occRecordCap) (by decide)
      ⟨rs.flatMap OccRecord.bytes, cuts'⟩
    exact yields_whole h hflat

theorem cache_readers_agree_iff (input : Bytes) (wordId bucket : UInt32) :
    ∃ writer, cacheOf (indexBuild input) wordId bucket = .ok writer ∧
      ∀ cuts cuts', ReadersAgree writer.out cuts cuts' ↔
        WholeRecords (Descriptor.chunks (occRecordSize * occRecordCap) ⟨writer.out, cuts'⟩) :=
  ⟨_, cacheOf_eq (indexBuild_sound input) wordId bucket, readersAgree_records _⟩

lemma textTokens_letter : textTokens (ascii "a") = [⟨1, 0, ascii "a"⟩] := by
  have hword : wordsFrom 0 (ascii "a") = [(0, ascii "a")] := by
    rw [wordsFrom_cons (c := 97) (t := []) rfl]
    exact congrArg _ (wordsFrom_nil rfl)
  have hlines : numbered (cutLines (ascii "a")) = [(ascii "a", 1)] := by
    rw [cutLines_end rfl]
    rfl
  rw [textTokens, hlines, tokensOf, List.flatMap_singleton, hword]
  rfl

lemma wordRecords_letter :
    wordRecords (indexBuild (ascii "a")) 0 (wordBucket (ascii "a")) = [⟨0, 1, 0⟩] := by
  have hvocabulary : vocabulary (textTokens (ascii "a")) = [ascii "a"] := by
    rw [textTokens_letter]
    decide
  have hposts : (indexBuild (ascii "a")).Posts (textTokens (ascii "a")) := by
    apply indexBuild_posts
    · rw [textTokens_letter]
      decide
    · rw [hvocabulary]
      decide
  have hlocate : locate (vocabulary (textTokens (ascii "a"))) (ascii "a") =
      some (0, wordBucket (ascii "a")) := by
    rw [hvocabulary]
    exact if_pos (List.mem_singleton_self _)
  rw [hposts.wordRecords_eq (by rw [hvocabulary]; decide) hlocate, textTokens_letter]
  decide

theorem short_read_disagrees : ∃ writer,
    cacheOf (indexBuild (ascii "a")) 0 (wordBucket (ascii "a")) = .ok writer ∧
      ¬∀ cuts cuts', ReadersAgree writer.out cuts cuts' := by
  refine ⟨_, cacheOf_eq (indexBuild_sound _) 0 _, fun h => ?_⟩
  have hwhole := (readersAgree_records _ [0] [0]).mp (h [0] [0])
  rw [wordRecords_letter] at hwhole
  have hfirst : [(0 : UInt8)] ∈ Descriptor.chunks (occRecordSize * occRecordCap)
      ⟨[OccRecord.mk 0 1 0].flatMap OccRecord.bytes, [0]⟩ := by
    rw [Descriptor.chunks, dif_neg (by decide)]
    exact List.mem_cons_self
  exact absurd (hwhole _ hfirst) (by decide)

end SystemsLab.Search
