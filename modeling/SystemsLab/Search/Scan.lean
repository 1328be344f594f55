import SystemsLab.Search.Records
import SystemsLab.CLib.Bytes

namespace SystemsLab.Search

open CLib

lemma length_bytes (r : OccRecord) : r.bytes.length = occRecordSize := by
  simp [OccRecord.bytes, occRecordSize]

lemma u32At_append {pre post : Bytes} {value : UInt32} {offset : ℕ} (h : pre.length = offset) :
    u32At (pre ++ (leBytes 4 value.toNat ++ post)) offset = value := by
  have htake : ((leBytes 4 value.toNat ++ post)).take 4 = leBytes 4 value.toNat := by
    rw [List.take_append_of_le_length (length_leBytes 4 _).ge, List.take_of_length_le]
    exact (length_leBytes 4 _).le
  rw [u32At, ← h, List.drop_left, htake, ofLeBytes_of_lt value.toNat_lt, UInt32.ofNat_toNat]

lemma ofBytes_bytes (r : OccRecord) : OccRecord.ofBytes r.bytes = r := by
  have h0 : u32At r.bytes 0 = r.wordId := by
    rw [OccRecord.bytes, List.append_assoc]
    exact u32At_append (List.length_nil : ([] : Bytes).length = 0)
  have h4 : u32At r.bytes 4 = r.lineNo := by
    rw [OccRecord.bytes, List.append_assoc]
    exact u32At_append (length_leBytes 4 _)
  have h8 : u32At r.bytes 8 = r.startIdx := by
    rw [OccRecord.bytes, ← List.append_nil (leBytes 4 r.startIdx.toNat)]
    refine u32At_append ?_
    rw [List.length_append, length_leBytes, length_leBytes]
  rw [OccRecord.ofBytes, h0, h4, h8]

lemma itemsOf_append {α : Type} {size : ℕ} {ofBytes : Bytes → α} {b rest : Bytes}
    (hsize : 0 < size) (hb : b.length = size) :
    itemsOf size ofBytes (b ++ rest) = ofBytes b :: itemsOf size ofBytes rest := by
  have hcount : (b ++ rest).length / size = rest.length / size + 1 := by
    rw [List.length_append, hb, Nat.add_div_left _ hsize]
  have htail : ∀ i, ((b ++ rest).drop (size * (i + 1))).take size =
      (rest.drop (size * i)).take size := by
    intro i
    have hi : size * (i + 1) = b.length + size * i := by
      rw [hb, Nat.mul_succ, Nat.add_comm]
    rw [hi, List.drop_length_add_append]
  rw [itemsOf, hcount, List.range_succ_eq_map, List.map_cons, List.map_map]
  refine congrArg₂ List.cons ?_ ?_
  · rw [Nat.mul_zero, List.drop_zero, ← hb, List.take_left]
  · rw [itemsOf]
    exact List.map_congr_left fun i _ => congrArg ofBytes (htail i)

lemma itemsOf_records (rs : List OccRecord) :
    itemsOf occRecordSize OccRecord.ofBytes (rs.flatMap OccRecord.bytes) = rs := by
  induction rs with
  | nil => rfl
  | cons r rs ih =>
    rw [List.flatMap_cons, itemsOf_append (by decide) (length_bytes r), ofBytes_bytes, ih]

lemma length_records (rs : List OccRecord) :
    (rs.flatMap OccRecord.bytes).length = occRecordSize * rs.length :=
  length_blocks length_bytes rs

lemma take_drop_records (rs : List OccRecord) (n : ℕ) :
    (rs.flatMap OccRecord.bytes).take (occRecordSize * n) = (rs.take n).flatMap OccRecord.bytes ∧
      (rs.flatMap OccRecord.bytes).drop (occRecordSize * n) =
        (rs.drop n).flatMap OccRecord.bytes :=
  take_drop_blocks length_bytes rs n

lemma scanFile_records {m : Type → Type} {α : Type} [Monad m] [LawfulMonad m]
    [MonadExceptOf Unit m] (keep : OccRecord → Bool) (fn : α → OccRecord → m α)
    (rs : List OccRecord) (arg : α) :
    scanFile keep fn [] (rs.flatMap OccRecord.bytes) arg = (rs.filter keep).foldlM fn arg := by
  induction hn : rs.length using Nat.strong_induction_on generalizing rs arg with
  | _ n ih =>
    obtain ⟨htake, hdrop⟩ := take_drop_records rs occRecordCap
    have hlen : occRecordSize * occRecordCap - ([] : Bytes).length =
        occRecordSize * occRecordCap := rfl
    have hread := (congrArg
      ((rs.flatMap OccRecord.bytes).take ·) hlen).trans htake
    rw [scanFile]
    split
    · next h =>
      rw [hread] at h
      cases rs with
      | nil => rfl
      | cons r rs =>
        have hl := congrArg List.length h
        rw [length_records] at hl
        simp [occRecordCap, occRecordSize] at hl
    · next c got h =>
      rw [hread] at h
      have hne : rs ≠ [] := by
        rintro rfl
        cases h
      have husable : ([] ++ c :: got).length / occRecordSize * occRecordSize =
          ([] ++ c :: got).length := by
        rw [List.nil_append, ← h, length_records]
        exact Nat.div_mul_cancel (Dvd.intro _ rfl)
      have hlt : (rs.drop occRecordCap).length < n := by
        rw [List.length_drop, hn]
        have hpos := List.length_pos_iff.mpr hne
        exact Nat.sub_lt (hn ▸ hpos) (by decide)
      simp only [husable, List.take_length, List.drop_length, hlen, hdrop]
      rw [List.nil_append, ← h, itemsOf_records]
      conv_rhs => rw [← List.take_append_drop occRecordCap rs, List.filter_append,
        List.foldlM_append, List.foldlM_filter]
      exact congrArg _ (funext fun arg => ih _ hlt _ arg rfl)

section Pieces

variable {m : Type → Type} {α : Type} [Monad m] [MonadExceptOf Unit m]

/-- `scanFile` when `read` returns the pieces of the file one after the other. -/
def scanPieces (keep : OccRecord → Bool) (fn : α → OccRecord → m α) (carry : Bytes) :
    List Bytes → α → m α
  | [], arg => if carry = [] then pure arg else throw ()
  | got :: pieces, arg => do
    let buffer := carry ++ got
    let usable := buffer.length / occRecordSize * occRecordSize
    let arg ← (itemsOf occRecordSize OccRecord.ofBytes (buffer.take usable)).foldlM
      (fun arg r => if keep r then fn arg r else pure arg) arg
    scanPieces keep fn (buffer.drop usable) pieces arg

lemma scanPieces_records [LawfulMonad m] (keep : OccRecord → Bool) (fn : α → OccRecord → m α)
    (pieces : List Bytes) {carry : Bytes} {rs : List OccRecord} (arg : α)
    (h : carry ++ pieces.flatten = rs.flatMap OccRecord.bytes) (hcarry : carry.length < occRecordSize) :
    scanPieces keep fn carry pieces arg = (rs.filter keep).foldlM fn arg := by
  induction pieces generalizing carry rs arg with
  | nil =>
    have hl := congrArg List.length h
    rw [List.flatten_nil, List.append_nil, length_records] at hl
    have hrs : rs = [] := by
      rw [← List.length_eq_zero_iff]
      simp only [occRecordSize] at hl hcarry
      omega
    subst hrs
    rw [List.flatten_nil, List.append_nil] at h
    subst h
    rfl
  | cons got pieces ih =>
    rw [List.flatten_cons, ← List.append_assoc] at h
    have husable : (carry ++ got).length / occRecordSize * occRecordSize =
        occRecordSize * ((carry ++ got).length / occRecordSize) := Nat.mul_comm _ _
    have hle : occRecordSize * ((carry ++ got).length / occRecordSize) ≤ (carry ++ got).length :=
      Nat.mul_div_le _ _
    obtain ⟨htake, hdrop⟩ := take_drop_records rs ((carry ++ got).length / occRecordSize)
    rw [← h, List.take_append_of_le_length hle] at htake
    rw [← h, List.drop_append_of_le_length hle] at hdrop
    have hleft : ((carry ++ got).drop
        (occRecordSize * ((carry ++ got).length / occRecordSize))).length < occRecordSize := by
      rw [List.length_drop]
      have hmod := Nat.mod_lt (carry ++ got).length (by decide : 0 < occRecordSize)
      have hdiv := Nat.div_add_mod (carry ++ got).length occRecordSize
      omega
    rw [scanPieces]
    simp only [husable, htake, itemsOf_records]
    conv_rhs => rw [← List.take_append_drop ((carry ++ got).length / occRecordSize) rs,
      List.filter_append, List.foldlM_append, List.foldlM_filter]
    exact congrArg _ (funext fun arg => ih arg hdrop hleft)

end Pieces

end SystemsLab.Search
