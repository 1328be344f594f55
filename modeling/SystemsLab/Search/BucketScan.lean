import SystemsLab.Search.Chunks
import SystemsLab.Tables.Copying

namespace SystemsLab.Search

open CLib Tables

def chunkSize : ℕ := occRecordSize * occRecordCap

def Chunk : Type := { bytes : Bytes // bytes.length = chunkSize }

/-- `move_bytes` within one buffer. -/
def moveBytes (buf : Bytes) (dst src len : ℕ) : Bytes :=
  if dst = src ∨ len = 0 then buf
  else if dst < src then (List.range len).foldl (copyCell dst src) buf
  else (List.range len).reverse.foldl (copyCell dst src) buf

abbrev OccScanFn (α : Type) := OccRecord → α → ℤ × α

structure ScanAnswer (α : Type) where
  status : ℤ
  arg : α
  requests : List ℕ

variable {α : Type}

def callAll (fn : OccScanFn α) : List OccRecord → α → ℤ × α
  | [], arg => (0, arg)
  | r :: rs, arg =>
    let (code, arg) := fn r arg
    if code < 0 then (-1, arg) else callAll fn rs arg

def callMatching (wordId : UInt32) (fn : OccScanFn α) : List OccRecord → α → ℤ × α
  | [], arg => (0, arg)
  | r :: rs, arg =>
    if r.wordId == wordId then
      let (code, arg) := fn r arg
      if code < 0 then (-1, arg) else callMatching wordId fn rs arg
    else callMatching wordId fn rs arg

def recordAt (buf : Bytes) (i : ℕ) : OccRecord :=
  OccRecord.ofBytes ((buf.drop (occRecordSize * i)).take occRecordSize)

/-- `requests` are the numbers of bytes that `read` has been asked for. -/
def scanFrom (wordId : UInt32) (fn : OccScanFn α) (buf : Bytes) (carry : ℕ) (fd : Descriptor)
    (arg : α) (requests : List ℕ) : ScanAnswer α :=
  let n := chunkSize - carry
  if _h : (fd.read n).1 = [] then ⟨if carry = 0 then 0 else -1, arg, requests ++ [n]⟩
  else
    let got := (fd.read n).1
    let buf := buf.take carry ++ got ++ buf.drop (carry + got.length)
    let total := carry + got.length
    let usable := total / occRecordSize * occRecordSize
    let count := usable / occRecordSize
    match callMatching wordId fn ((List.range count).map (recordAt buf)) arg with
    | (status, arg) =>
      if status < 0 then ⟨-1, arg, requests ++ [n]⟩
      else
        let carry := total - usable
        let buf := if carry > 0 then moveBytes buf 0 usable carry else buf
        scanFrom wordId fn buf carry (fd.read n).2 arg (requests ++ [n])
termination_by fd.left.length
decreasing_by exact Descriptor.read_shorter _h

def scanBucketForWord (wordId : UInt32) (fn : OccScanFn α) (chunk : Chunk) (fd : Descriptor)
    (arg : α) : ScanAnswer α :=
  scanFrom wordId fn chunk.1 0 fd arg []

section Buffer

variable {buf : Bytes} {dst src len : ℕ}

/-- The ranges may overlap: each byte is read before it is overwritten. -/
lemma moveBytes_copied (hsrc : src + len ≤ buf.length) (hdst : dst + len ≤ buf.length) :
    Copied buf dst src 0 len (moveBytes buf dst src len) := by
  rw [moveBytes]
  split_ifs with hsame hlt
  · rcases hsame with rfl | rfl
    · exact ⟨rfl, fun _ _ _ => rfl, fun _ _ => rfl⟩
    · exact .refl buf dst src 0
  · exact copied_up hlt hsrc
  · rw [not_or] at hsame
    exact copied_down (lt_of_le_of_ne (not_lt.mp hlt) (Ne.symm hsame.1)) hdst

lemma moveBytes_front (h : src + len ≤ buf.length) :
    (moveBytes buf 0 src len).length = buf.length ∧
      (moveBytes buf 0 src len).take len = (buf.drop src).take len := by
  have hcopied : Copied buf 0 src 0 len (moveBytes buf 0 src len) := moveBytes_copied h (by omega)
  exact ⟨hcopied.length_eq, hcopied.range_eq⟩

lemma itemsOf_take (bytes rest : Bytes) :
    (List.range (bytes.length / occRecordSize)).map (recordAt (bytes ++ rest)) =
      itemsOf occRecordSize OccRecord.ofBytes
        (bytes.take (bytes.length / occRecordSize * occRecordSize)) := by
  have hle := Nat.div_mul_le_self bytes.length occRecordSize
  have hcount : (bytes.take (bytes.length / occRecordSize * occRecordSize)).length / occRecordSize =
      bytes.length / occRecordSize := by
    rw [List.length_take, min_eq_left hle, Nat.mul_div_cancel _ (by decide)]
  rw [itemsOf, hcount]
  refine List.map_congr_left fun i hi => ?_
  have hi' := Nat.mul_le_mul_right occRecordSize (Nat.succ_le_of_lt (List.mem_range.mp hi))
  rw [Nat.succ_mul] at hi'
  rw [recordAt]
  congr 1
  apply List.ext_getElem?
  intro j
  simp only [List.getElem?_take, List.getElem?_drop]
  split_ifs with hj hin
  · rw [List.getElem?_append_left (by rw [Nat.mul_comm]; omega)]
  · rw [Nat.mul_comm] at hin
    omega
  · rfl

lemma Descriptor.length_read_le (d : Descriptor) (n : ℕ) : (d.read n).1.length ≤ n := by
  have hcount : d.count n ≤ n := by
    rw [count]
    cases d.cuts with
    | nil => exact le_rfl
    | cons cut cuts => exact min_le_left n _
  exact (List.length_take_le _ _).trans hcount

end Buffer

section Refines

variable {wordId : UInt32} {fn : OccScanFn α} {buf : Bytes} {carry : ℕ} {fd : Descriptor}
  {requests : List ℕ}

def throwing (fn : OccScanFn α) (_ : Unit) (r : OccRecord) : EStateM Unit α Unit := fun arg =>
  let (code, arg) := fn r arg
  if code < 0 then .error () arg else .ok () arg

def statusOf : EStateM.Result Unit α Unit → ℤ × α
  | .ok _ arg => (0, arg)
  | .error _ arg => (-1, arg)

lemma callAll_eq (fn : OccScanFn α) (rs : List OccRecord) (arg : α) :
    callAll fn rs arg = statusOf (rs.foldlM (throwing fn) () arg) := by
  induction rs generalizing arg with
  | nil => rfl
  | cons r rs ih =>
    rw [callAll, List.foldlM_cons]
    change _ = statusOf (EStateM.bind _ _ _)
    rw [EStateM.bind, throwing]
    cases fn r arg with
    | mk code next =>
      simp only
      split_ifs with hcode
      · rfl
      · exact ih next

lemma callMatching_eq (wordId : UInt32) (fn : OccScanFn α) (rs : List OccRecord) (arg : α) :
    callMatching wordId fn rs arg = callAll fn (rs.filter fun r => r.wordId == wordId) arg := by
  induction rs generalizing arg with
  | nil => rfl
  | cons r rs ih =>
    rw [callMatching]
    split_ifs with hid
    · rw [List.filter_cons, if_pos hid, callAll]
      simp only [ih]
    · rw [List.filter_cons, if_neg hid, ih]

lemma callMatching_statusOf (wordId : UInt32) (fn : OccScanFn α) (rs : List OccRecord) (arg : α) :
    callMatching wordId fn rs arg = statusOf (rs.foldlM
      (fun u r => if r.wordId == wordId then throwing fn u r else pure u) () arg) := by
  rw [callMatching_eq, callAll_eq, List.foldlM_filter]

structure Refilled (buf : Bytes) (carry : ℕ) (got buf' : Bytes) : Prop where
  length_eq : buf'.length = chunkSize
  take_eq : buf'.take (carry + got.length) = buf.take carry ++ got

lemma refilled {got : Bytes} (hbuf : buf.length = chunkSize)
    (hgot : carry + got.length ≤ chunkSize) :
    Refilled buf carry got (buf.take carry ++ got ++ buf.drop (carry + got.length)) := by
  have htake : (buf.take carry ++ got).length = carry + got.length := by
    rw [List.length_append, List.length_take]
    omega
  constructor
  · rw [List.length_append, htake, List.length_drop]
    omega
  · rw [← htake, List.take_left]

lemma Refilled.moved {got buf' : Bytes} {usable total : ℕ} (h : Refilled buf carry got buf')
    (htotal : carry + got.length = total) (hle : total ≤ chunkSize) (husable : usable ≤ total) :
    (if total - usable > 0 then moveBytes buf' 0 usable (total - usable) else buf').length = chunkSize ∧
      (if total - usable > 0 then moveBytes buf' 0 usable (total - usable) else buf').take
        (total - usable) = (buf.take carry ++ got).drop usable := by
  have hlen := h.length_eq
  have hdrop : (buf'.drop usable).take (total - usable) = (buf.take carry ++ got).drop usable := by
    rw [← h.take_eq, htotal, List.drop_take]
  split_ifs with hrest
  · have hfits : usable + (total - usable) ≤ buf'.length := by omega
    obtain ⟨hlength, hfront⟩ := moveBytes_front hfits
    exact ⟨hlength.trans hlen, hfront.trans hdrop⟩
  · refine ⟨hlen, ?_⟩
    have hzero : total - usable = 0 := by omega
    rw [← hdrop, hzero, List.take_zero, List.take_zero]

lemma rest_lt (total : ℕ) : total - total / occRecordSize * occRecordSize < occRecordSize := by
  rw [← Nat.mod_eq_sub_div_mul]
  exact Nat.mod_lt total (by decide)

lemma scanFrom_eq (hbuf : buf.length = chunkSize) (hcarry : carry < occRecordSize) (arg : α) :
    ((scanFrom wordId fn buf carry fd arg requests).status,
        (scanFrom wordId fn buf carry fd arg requests).arg) =
      statusOf (scanChunks (fun r => r.wordId == wordId) (throwing fn) (buf.take carry) fd () arg) := by
  induction hlen : fd.left.length using Nat.strong_induction_on
    generalizing fd buf carry arg requests with
  | _ len ih =>
    have hsize : occRecordSize ≤ chunkSize := by decide
    have htake : (buf.take carry).length = carry := by
      rw [List.length_take]
      omega
    have hn : occRecordSize * occRecordCap - (buf.take carry).length = chunkSize - carry := by
      rw [htake, chunkSize]
    rw [scanFrom, scanChunks]
    by_cases hread : (fd.read (chunkSize - carry)).1 = []
    · have hread' := hread
      rw [← hn] at hread'
      rw [dif_pos hread, dif_pos hread']
      by_cases hzero : carry = 0
      · subst hzero
        rfl
      · have hne : buf.take carry ≠ [] := by
          rw [ne_eq, ← List.length_eq_zero_iff, htake]
          exact hzero
        rw [if_neg hzero, if_neg hne]
        rfl
    · have hread' := hread
      rw [← hn] at hread'
      rw [dif_neg hread, dif_neg hread', hn]
      have hgot := fd.length_read_le (chunkSize - carry)
      have hshort := Descriptor.read_shorter hread
      generalize fd.read (chunkSize - carry) = answer at hread hgot hshort
      obtain ⟨got, fd'⟩ := answer
      simp only at hread hgot hshort ⊢
      have hfull : carry + got.length ≤ chunkSize := by omega
      have hlength : (buf.take carry ++ got).length = carry + got.length := by
        rw [List.length_append, htake]
      have hrecords := itemsOf_take (buf.take carry ++ got) (buf.drop (carry + got.length))
      rw [hlength] at hrecords
      have hmoved := (refilled hbuf hfull).moved rfl hfull
        (Nat.div_mul_le_self (carry + got.length) occRecordSize)
      rw [Nat.mul_div_cancel _ (by decide : 0 < occRecordSize), hrecords, callMatching_statusOf,
        hlength]
      change _ = statusOf (EStateM.bind _ _ _)
      rw [EStateM.bind]
      generalize hcalls : List.foldlM (fun u r => if (r.wordId == wordId) = true then
        throwing fn u r else pure u) () (itemsOf occRecordSize OccRecord.ofBytes
        ((buf.take carry ++ got).take ((carry + got.length) / occRecordSize * occRecordSize))) arg =
        result
      cases result with
      | error e next => rfl
      | ok u next =>
        rw [← hmoved.2]
        exact ih _ (hlen ▸ hshort) hmoved.1 (rest_lt (carry + got.length)) next rfl

/-- Every request leaves room for the carry only, which is less than one record. -/
lemma requests_pos (hcarry : carry < occRecordSize) (arg : α) (hrequests : ∀ n ∈ requests, 1 ≤ n) :
    ∀ n ∈ (scanFrom wordId fn buf carry fd arg requests).requests, 1 ≤ n := by
  induction hlen : fd.left.length using Nat.strong_induction_on
    generalizing fd buf carry arg requests with
  | _ len ih =>
    have hsize : occRecordSize ≤ chunkSize := by decide
    have hnext : ∀ n ∈ requests ++ [chunkSize - carry], 1 ≤ n := by
      intro n hn
      rcases List.mem_append.mp hn with hold | hnew
      · exact hrequests n hold
      · rw [List.mem_singleton.mp hnew]
        omega
    rw [scanFrom]
    by_cases hread : (fd.read (chunkSize - carry)).1 = []
    · rw [dif_pos hread]
      exact hnext
    · have hshort := Descriptor.read_shorter hread
      rw [dif_neg hread]
      simp only
      split
      · exact hnext
      · exact ih _ (hlen ▸ hshort) (rest_lt _) _ hnext rfl

end Refines

section Outcome

variable {keep : OccRecord → Bool} {fn : OccScanFn α}

lemma scanPieces_incomplete (pieces : List Bytes) {carry : Bytes} (arg : α)
    (h : (carry ++ pieces.flatten).length % occRecordSize ≠ 0) :
    (statusOf (scanPieces keep (throwing fn) carry pieces () arg)).1 = -1 := by
  induction pieces generalizing carry arg with
  | nil =>
    have hne : carry ≠ [] := by
      rintro rfl
      exact h (Nat.zero_mod _)
    rw [scanPieces, if_neg hne]
    rfl
  | cons got pieces ih =>
    have hle := Nat.div_mul_le_self (carry ++ got).length occRecordSize
    have hleft : ((carry ++ got).drop ((carry ++ got).length / occRecordSize * occRecordSize) ++
        pieces.flatten).length % occRecordSize ≠ 0 := by
      intro hzero
      apply h
      rw [List.flatten_cons, ← List.append_assoc, List.length_append]
      rw [List.length_append, List.length_drop] at hzero
      have hsum : (carry ++ got).length + pieces.flatten.length =
          ((carry ++ got).length - (carry ++ got).length / occRecordSize * occRecordSize +
            pieces.flatten.length) + (carry ++ got).length / occRecordSize * occRecordSize := by
        omega
      rw [hsum, Nat.add_mul_mod_self_right]
      exact hzero
    rw [scanPieces]
    change (statusOf (EStateM.bind _ _ _)).1 = -1
    rw [EStateM.bind]
    generalize hcalls : List.foldlM (fun u r => if keep r = true then throwing fn u r else pure u) ()
      (itemsOf occRecordSize OccRecord.ofBytes ((carry ++ got).take
        ((carry ++ got).length / occRecordSize * occRecordSize))) arg = result
    cases result with
    | error e next => rfl
    | ok u next => exact ih next hleft

lemma callAll_succeeds (hfn : ∀ r arg, 0 ≤ (fn r arg).1) (rs : List OccRecord) (arg : α) :
    (callAll fn rs arg).1 = 0 := by
  induction rs generalizing arg with
  | nil => rfl
  | cons r rs ih =>
    rw [callAll]
    simp only [if_neg (not_lt.mpr (hfn r arg))]
    exact ih _

theorem scan_bucket_any_chunks (wordId : UInt32) (fn : OccScanFn α) (chunk : Chunk) (fd : Descriptor)
    (arg : α) :
    let answer := scanBucketForWord wordId fn chunk fd arg
    (∀ rs : List OccRecord, fd.left = rs.flatMap OccRecord.bytes →
      (answer.status, answer.arg) = callAll fn (rs.filter fun r => r.wordId == wordId) arg ∧
        ((∀ r arg, 0 ≤ (fn r arg).1) → answer.status = 0)) ∧
      (fd.left.length % occRecordSize ≠ 0 → answer.status = -1) ∧
      ∀ n ∈ answer.requests, 1 ≤ n := by
  intro answer
  have hscan : (answer.status, answer.arg) = statusOf
      (scanChunks (fun r => r.wordId == wordId) (throwing fn) [] fd () arg) := by
    exact scanFrom_eq chunk.2 (by decide) arg
  obtain ⟨pieces, hpieces, heq⟩ := scanChunks_pieces (fun r => r.wordId == wordId) (throwing fn)
    (by decide : ([] : Bytes).length < occRecordSize) fd
  rw [heq] at hscan
  refine ⟨fun rs hfile => ?_, fun hincomplete => ?_, ?_⟩
  · have hcalls : (answer.status, answer.arg) =
        callAll fn (rs.filter fun r => r.wordId == wordId) arg := by
      rw [hscan, scanPieces_records _ _ _ _ (hpieces.trans hfile) (by decide), callAll_eq]
    refine ⟨hcalls, fun hfn => ?_⟩
    rw [← callAll_succeeds hfn, ← hcalls]
  · rw [← scanPieces_incomplete pieces arg (by rwa [List.nil_append, hpieces]), ← hscan]
  · exact requests_pos (by decide) arg (by simp)

theorem scan_bucket_torn_record :
    (scanBucketForWord 7 (fun r found => (0, found ++ [r]))
      ⟨List.replicate chunkSize 0, List.length_replicate⟩
      ⟨[⟨9, 1, 0⟩, ⟨7, 2, 0⟩].flatMap OccRecord.bytes, [16]⟩ []).arg = [⟨7, 2, 0⟩] :=
  congrArg Prod.snd ((scan_bucket_any_chunks 7 _ _ _ _).1 [⟨9, 1, 0⟩, ⟨7, 2, 0⟩] rfl).1

end Outcome

end SystemsLab.Search
