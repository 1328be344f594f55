import SystemsLab.Search.Patterns
import Mathlib.Data.List.Sort

namespace SystemsLab.Search

open CLib Effects Streams

def wordLines (index : Index) (word : UInt32 × UInt32) : List ℕ :=
  groupKeys OccRecord.line (wordRecords index word.1 word.2)

def sharedLines (index : Index) (lines : List ℕ) (words : List (UInt32 × UInt32)) : List ℕ :=
  words.foldl (fun lines word => common lines (wordLines index word)) lines

structure InLines (index : Index) (words : List (UInt32 × UInt32)) : Prop where
  known : ∀ word ∈ words, Known index word
  sorted : ∀ word ∈ words, Sorted OccRecord.line (wordRecords index word.1 word.2)
  length : ∀ word ∈ words, (wordLines index word).length < 2 ^ 32

variable {index : Index} {word : UInt32 × UInt32} {words words' : List (UInt32 × UInt32)} {s : Session}
  {source left right : LineNumberSource} {lines ls rs : List ℕ} {out : Bytes} {α : Type} {k : ℕ}
  {F : Unit → Session → Prop} {E : Unit → Bytes → Prop}

namespace InLines

lemma perm (h : InLines index words) (hperm : words'.Perm words) : InLines index words' where
  known word hword := h.known word (hperm.mem_iff.mp hword)
  sorted word hword := h.sorted word (hperm.mem_iff.mp hword)
  length word hword := h.length word (hperm.mem_iff.mp hword)

lemma tail (h : InLines index (word :: words)) : InLines index words where
  known w hw := h.known w (List.mem_cons_of_mem word hw)
  sorted w hw := h.sorted w (List.mem_cons_of_mem word hw)
  length w hw := h.length w (List.mem_cons_of_mem word hw)

lemma wordLines_sorted (h : InLines index words) (hword : word ∈ words) :
    (wordLines index word).Pairwise (· < ·) :=
  groupKeys_sorted (h.sorted word hword)

end InLines

lemma wordLines_lt (index : Index) (word : UInt32 × UInt32) : ∀ k ∈ wordLines index word, k < 2 ^ 32 := by
  intro k hk
  obtain ⟨r, -, rfl⟩ := (mem_groupKeys _ _).mp hk
  exact r.lineNo.toNat_lt

lemma sharedLines_spec (h : InLines index words) (hlines : lines.Pairwise (· < ·)) :
    (sharedLines index lines words).Pairwise (· < ·) ∧
      ∀ k, k ∈ sharedLines index lines words ↔ k ∈ lines ∧ ∀ word ∈ words, k ∈ wordLines index word := by
  induction words generalizing lines with
  | nil => exact ⟨hlines, fun k => by simp [sharedLines]⟩
  | cons word words ih =>
    have hword := h.wordLines_sorted List.mem_cons_self
    obtain ⟨hsorted, hmem⟩ := ih h.tail (common_sorted hlines hword)
    refine ⟨hsorted, fun k => ?_⟩
    rw [sharedLines, List.foldl_cons, ← sharedLines, hmem, mem_common hlines hword, List.forall_mem_cons,
      and_assoc]

lemma sharedLines_nil (h : InLines index words) : sharedLines index [] words = [] := by
  rw [List.eq_nil_iff_forall_not_mem]
  intro k hk
  cases (((sharedLines_spec h List.Pairwise.nil).2 k).mp hk).1

def linesFile (lines : List ℕ) : Bytes := (lines.map UInt32.ofNat).flatMap lineNumberBytes

lemma openFile_yields (hlt : ∀ k ∈ lines, k < 2 ^ 32) :
    (lineNumberSourceOpenFile (linesFile lines)).Yields lines := by
  refine ⟨lines.map UInt32.ofNat, ?_, FileReader.openFile_holds _⟩
  rw [List.map_map]
  conv_lhs => rw [← List.map_id lines]
  exact List.map_congr_left fun k hk => (UInt32.toNat_ofNat_of_lt' (hlt k hk)).symm

lemma openWord_yields (hs : CacheSound s) (hword : Known s.index word) :
    Ends (lineNumberSourceOpenWord word.1 word.2)
      (fun source s' => Grows s s' ∧ source.Yields (wordLines s.index word)) F s := by
  rw [lineNumberSourceOpenWord]
  simp only [ends_bind, ends_pure]
  refine (openWord_ends hs hword F).imp fun _ s₁ hopen => hopen.imp ?_
  rintro file s₂ ⟨hgrows, rfl⟩
  exact ⟨hgrows, _, rfl, Or.inr ⟨rfl, FileReader.openFile_holds _⟩⟩

lemma outputLineSource_ends (h : source.Yields lines) :
    Ends (outputLineSource source)
      (fun _ out' => out' = out ++ lines.flatMap lineNoRef ++ [newline]) E out := by
  induction lines generalizing source out with
  | nil =>
    obtain ⟨-, hnext⟩ | ⟨lineNo, rest, source', hcons, -⟩ := lineNumberSourceNext_yields h
    · rw [outputLineSource]
      split
      · next hn =>
        rw [hnext] at hn
        cases hn
      · simp [emitBlankLine]
      · next hn =>
        rw [hnext] at hn
        cases hn
    · cases hcons
  | cons k lines ih =>
    obtain ⟨hnil, -⟩ | ⟨lineNo, rest, source', hcons, hnext, hrest⟩ := lineNumberSourceNext_yields h
    · cases hnil
    · obtain ⟨rfl, rfl⟩ := List.cons.inj hcons
      rw [outputLineSource]
      split
      · next hn =>
        rw [hnext] at hn
        cases hn
      · next hn =>
        rw [hnext] at hn
        cases hn
      · next hn =>
        rw [hnext] at hn
        cases hn
        rw [ends_bind, ends_emitLineNo]
        refine (ih hrest).imp fun _ out' hout => ?_
        rw [hout, List.flatMap_cons, List.append_assoc out]

lemma intersectFrom_eq {fn : α → UInt32 → Emit α} {left right : Advanced} {arg : α}
    (hl : left.Yields ls) (hr : right.Yields rs) (hls : ls.Pairwise (· < ·)) (hrs : rs.Pairwise (· < ·)) :
    intersectFrom fn left right arg =
      (common ls rs).foldlM (fun arg k => fn arg (UInt32.ofNat k)) arg := by
  induction hn : ls.length + rs.length using Nat.strong_induction_on generalizing ls rs left right arg with
  | h n ih =>
    subst hn
    cases left with
    | none =>
      obtain rfl : ls = [] := hl
      rw [intersectFrom, common_nil_left]
      · rfl
      · intro _ _ _ _ hnone
        cases hnone
    | some l =>
      cases right with
      | none =>
        obtain rfl : rs = [] := hr
        rw [intersectFrom, common_nil_right]
        · rfl
        · intro _ _ _ _ _ hnone
          cases hnone
      | some r =>
        obtain ⟨a, l⟩ := l
        obtain ⟨c, r⟩ := r
        obtain ⟨ls, rfl, hl'⟩ := hl
        obtain ⟨rs, rfl, hr'⟩ := hr
        obtain ⟨next, hnext, hl''⟩ := next_advanced hl'
        obtain ⟨next', hnext', hr''⟩ := next_advanced hr'
        have htail := (List.pairwise_cons.mp hls).2
        have htail' := (List.pairwise_cons.mp hrs).2
        rw [common_cons hls hrs, intersectFrom]
        by_cases heq : a = c
        · subst heq
          rw [if_pos rfl, if_neg (lt_irrefl _), if_neg (lt_irrefl _), List.foldlM_cons, UInt32.ofNat_toNat]
          split
          · next h h' =>
            rw [hnext] at h
            rw [hnext'] at h'
            cases h
            cases h'
            refine congrArg _ (funext fun arg => ?_)
            exact ih _ (by simp only [List.length_cons]; omega) hl'' hr'' htail htail' rfl
          · next h => exact (h _ _ hnext hnext').elim
        rw [if_neg heq]
        by_cases hlt : a < c
        · rw [if_pos hlt, if_pos (UInt32.lt_iff_toNat_lt.mp hlt)]
          split
          · next h =>
            rw [hnext] at h
            cases h
          · next h =>
            rw [hnext] at h
            cases h
            exact ih _ (by simp only [List.length_cons]; omega) hl'' ⟨rs, rfl, hr'⟩ htail hrs rfl
        · have hgt : c.toNat < a.toNat := by
            have hne : a.toNat ≠ c.toNat := fun h => heq (UInt32.toNat_inj.mp h)
            rw [UInt32.lt_iff_toNat_lt] at hlt
            omega
          rw [if_neg hlt, if_neg (not_lt.mpr hgt.le), if_pos hgt]
          split
          · next h =>
            rw [hnext'] at h
            cases h
          · next h =>
            rw [hnext'] at h
            cases h
            exact ih _ (by simp only [List.length_cons]; omega) ⟨ls, rfl, hl'⟩ hr'' hls htail' rfl

lemma intersectLineSources_eq {fn : α → UInt32 → Emit α} {arg : α} (hl : left.Yields ls)
    (hr : right.Yields rs) (hls : ls.Pairwise (· < ·)) (hrs : rs.Pairwise (· < ·)) :
    intersectLineSources fn left right arg =
      (common ls rs).foldlM (fun arg k => fn arg (UInt32.ofNat k)) arg := by
  obtain ⟨next, hnext, hl'⟩ := next_advanced hl
  obtain ⟨next', hnext', hr'⟩ := next_advanced hr
  rw [intersectLineSources, hnext, hnext']
  exact intersectFrom_eq hl' hr' hls hrs

lemma common_subset (hls : ls.Pairwise (· < ·)) (hrs : rs.Pairwise (· < ·)) : common ls rs ⊆ ls :=
  fun _ hk => ((mem_common hls hrs).mp hk).1

lemma intersectToFile_eq (hl : left.Yields ls) (hr : right.Yields rs) (hls : ls.Pairwise (· < ·))
    (hrs : rs.Pairwise (· < ·)) :
    intersectLineSourcesToFile left right =
      pure (linesFile (common ls rs), UInt32.ofNat (common ls rs).length) := by
  rw [intersectLineSourcesToFile, intersectLineSources_eq hl hr hls hrs]
  have hfold : ∀ (ks : List ℕ) (file : Bytes) (count : UInt32),
      ks.foldlM (fun (arg : Bytes × UInt32) k =>
        (pure (arg.1 ++ leBytes 4 (UInt32.ofNat k).toNat, arg.2 + 1) : Emit (Bytes × UInt32)))
        (file, count) = pure (file ++ linesFile ks, count + UInt32.ofNat ks.length) := by
    intro ks
    induction ks with
    | nil =>
      intro file count
      rw [linesFile, List.map_nil, List.flatMap_nil, List.append_nil]
      exact congrArg (fun n => pure (file, n)) (UInt32.add_zero count).symm
    | cons k ks ih =>
      intro file count
      have hcount : count + 1 + UInt32.ofNat ks.length = count + UInt32.ofNat (ks.length + 1) := by
        rw [UInt32.ofNat_add, UInt32.add_comm (UInt32.ofNat ks.length), UInt32.add_assoc]
        rfl
      rw [List.foldlM_cons, pure_bind, ih, hcount, List.append_assoc]
      rfl
  rw [hfold, List.nil_append, UInt32.zero_add]

lemma intersectToOutput_ends (hl : left.Yields ls) (hr : right.Yields rs) (hls : ls.Pairwise (· < ·))
    (hrs : rs.Pairwise (· < ·)) (hlt : ∀ k ∈ ls, k < 2 ^ 32) :
    Ends (intersectLineSourcesToOutput left right)
      (fun _ out' => out' = out ++ (common ls rs).flatMap lineNoRef ++ [newline]) E out := by
  have hfold : ∀ (ks : List ℕ) (count : UInt32) (out : Bytes), (∀ k ∈ ks, k < 2 ^ 32) →
      Ends (ks.foldlM (fun (count : UInt32) k => do
        emitLineNo (UInt32.ofNat k)
        pure (count + 1)) count) (fun _ out' => out' = out ++ ks.flatMap lineNoRef) E out := by
    intro ks
    induction ks with
    | nil => exact fun count out _ => (List.append_nil out).symm
    | cons k ks ih =>
      intro count out hks
      rw [List.foldlM_cons]
      simp only [ends_bind, ends_emitLineNo, ends_pure]
      refine (ih _ _ fun k' hk' => hks k' (List.mem_cons_of_mem k hk')).imp fun _ out' hout => ?_
      rw [hout, List.flatMap_cons, List.append_assoc, UInt32.toNat_ofNat_of_lt' (hks k List.mem_cons_self)]
  rw [intersectLineSourcesToOutput, intersectLineSources_eq hl hr hls hrs]
  simp only [ends_bind, ends_pure]
  refine (hfold _ _ _ fun k hk => hlt k (common_subset hls hrs hk)).imp fun _ out' hout => ?_
  rw [emitBlankLine, ends_emit, hout]

lemma length_common_le (hls : ls.Pairwise (· < ·)) (hrs : rs.Pairwise (· < ·)) :
    (common ls rs).length ≤ ls.length := by
  have hnodup := (common_sorted hls hrs).imp fun hlt => hlt.ne
  exact (List.subperm_of_subset hnodup (common_subset hls hrs)).length_le

lemma ofNat_length_eq_zero {ks : List ℕ} (hlen : ks.length < 2 ^ 32) :
    UInt32.ofNat ks.length = 0 ↔ ks = [] := by
  rw [← UInt32.toNat_inj, UInt32.toNat_ofNat_of_lt' hlen, ← List.length_eq_zero_iff]
  exact Iff.rfl

lemma multiStages_ends (hs : CacheSound s) (hwords : InLines s.index words) (hne : words ≠ [])
    (hlines : lines.Pairwise (· < ·)) (hlt : ∀ k ∈ lines, k < 2 ^ 32) (hlen : lines.length < 2 ^ 32) :
    Ends (multiStages (linesFile lines) words)
      (fun _ s' => s'.out =
        s.out ++ (sharedLines s.index lines words).flatMap lineNoRef ++ [newline])
      (fun _ _ => False) s := by
  induction words generalizing s lines with
  | nil => exact (hne rfl).elim
  | cons word words ih =>
    have hfile := openFile_yields hlt
    have hopen := openWord_yields (F := fun _ _ => False) hs (hwords.known word List.mem_cons_self)
    have hsorted := hwords.wordLines_sorted List.mem_cons_self
    cases words with
    | nil =>
      change Ends (lineNumberSourceOpenWord word.1 word.2 >>= _) _ _ s
      simp only [ends_bind, ends_output, ends_pure]
      refine hopen.imp fun right s₁ hright => ?_
      refine (intersectToOutput_ends hfile hright.2 hlines hsorted hlt).imp fun _ out hout => ?_
      rw [hout, hright.1.out]
      rfl
    | cons next words =>
      change Ends (lineNumberSourceOpenWord word.1 word.2 >>= _) _ _ s
      simp only [ends_bind, ends_output]
      refine hopen.imp fun right s₁ hright => ?_
      obtain ⟨hgrows, hyields⟩ := hright
      rw [intersectToFile_eq hfile hyields hlines hsorted, ends_pure]
      have hle := length_common_le hlines hsorted
      have hcount : UInt32.ofNat (common lines (wordLines s.index word)).length = 0 ↔ _ :=
        ofNat_length_eq_zero (by omega)
      simp only [ends_ite, ends_output, emitBlankLine, ends_emit, hcount]
      constructor
      · intro hempty
        have hnil : sharedLines s.index lines (word :: next :: words) = [] := by
          rw [sharedLines, List.foldl_cons, hempty]
          exact sharedLines_nil hwords.tail
        rw [hnil, List.flatMap_nil, List.append_nil, hgrows.out]
      · intro _
        have hrest := ih (s := s₁) hgrows.sound (hgrows.index.symm ▸ hwords.tail) (List.cons_ne_nil _ _)
          (common_sorted hlines hsorted) (fun k hk => hlt k (common_subset hlines hsorted hk)) (by omega)
        refine hrest.imp fun _ s' hout => ?_
        rw [hout, hgrows.index, hgrows.out]
        rfl

def SharedBy (index : Index) (words : List (UInt32 × UInt32)) (lines : List ℕ) : Prop :=
  lines.Pairwise (· < ·) ∧ ∀ k, k ∈ lines ↔ ∀ word ∈ words, k ∈ wordLines index word

lemma sharedLines_sharedBy (h : InLines index (word :: words)) :
    SharedBy index (word :: words) (sharedLines index (wordLines index word) words) := by
  obtain ⟨hsorted, hmem⟩ := sharedLines_spec h.tail (h.wordLines_sorted List.mem_cons_self)
  exact ⟨hsorted, fun k => by rw [hmem, List.forall_mem_cons]⟩

lemma ensureAll_ends (hs : CacheSound s) (hwords : ∀ word ∈ words, Known s.index word) :
    Ends (words.forM fun word => ensureWordCache word.1 word.2) (fun _ s' => Grows s s') F s := by
  refine ends_forM (fun word hword s₁ h₁ => ?_) (Grows.refl hs)
  refine (ensureWordCache_ends h₁.sound (h₁.index.symm ▸ hwords word hword) F).imp fun _ s₂ h₂ => ?_
  exact ⟨h₂.1.sound, h₂.1.index.trans h₁.index, h₂.1.lineBuf.trans h₁.lineBuf, h₂.1.out.trans h₁.out,
    fun i hi => h₂.1.keeps i (h₁.keeps i hi)⟩

lemma SharedBy.unique {lines' : List ℕ} (h : SharedBy index words lines)
    (h' : SharedBy index words' lines') (hperm : words.Perm words') : lines = lines' := by
  refine h.1.eq_of_mem_iff h'.1 fun k => ?_
  rw [h.2, h'.2]
  exact forall_congr' fun word => imp_congr_left hperm.mem_iff

/-- The end of `handle_multi`, for the words in their final order. -/
def multiSources : List (UInt32 × UInt32) → SearchM Unit
  | [] => return ()
  | [(wordId, bucket)] => do
    let source ← lineNumberSourceOpenWord wordId bucket
    output (outputLineSource source)
  | (leftId, leftBucket) :: (rightId, rightBucket) :: words => do
    let left ← lineNumberSourceOpenWord leftId leftBucket
    let right ← lineNumberSourceOpenWord rightId rightBucket
    if words = [] then
      let _ ← output (intersectLineSourcesToOutput left right)
    else
      let (lines, matchCount) ← output (intersectLineSourcesToFile left right)
      if matchCount = 0 then output emitBlankLine else multiStages lines words

lemma multiSources_ends (hs : CacheSound s) (hwords : InLines s.index words) (hne : words ≠ [])
    (hlines : SharedBy s.index words lines) :
    Ends (multiSources words)
      (fun _ s' => s'.out = s.out ++ lines.flatMap lineNoRef ++ [newline]) (fun _ _ => False) s := by
  cases words with
  | nil => exact (hne rfl).elim
  | cons word words =>
    have hshared := sharedLines_sharedBy hwords
    rw [hlines.unique hshared (List.Perm.refl _)]
    have hword := hwords.known word List.mem_cons_self
    have hsorted := hwords.wordLines_sorted List.mem_cons_self
    have hopen := openWord_yields (F := fun _ _ => False) hs hword
    cases words with
    | nil =>
      change Ends (lineNumberSourceOpenWord word.1 word.2 >>= _) _ _ s
      simp only [ends_bind, ends_output]
      refine hopen.imp fun source s₁ hsource => ?_
      refine (outputLineSource_ends hsource.2).imp fun _ out hout => ?_
      rw [hout, hsource.1.out]
      rfl
    | cons next words =>
      have hnext := hwords.known next (List.mem_cons_of_mem _ List.mem_cons_self)
      have hsorted' := hwords.tail.wordLines_sorted List.mem_cons_self
      change Ends (lineNumberSourceOpenWord word.1 word.2 >>= _) _ _ s
      simp only [ends_bind]
      refine hopen.imp fun left s₁ hleft => ?_
      obtain ⟨hgrows, hleft⟩ := hleft
      refine (openWord_yields hgrows.sound (hgrows.index.symm ▸ hnext)).imp fun right s₂ hright => ?_
      obtain ⟨hgrows₂, hright⟩ := hright
      rw [hgrows.index] at hright
      have hlt := wordLines_lt s.index word
      have hlen := hwords.length word List.mem_cons_self
      have hle := length_common_le hsorted hsorted'
      rw [ends_ite]
      constructor
      · rintro rfl
        simp only [ends_bind, ends_output, ends_pure]
        refine (intersectToOutput_ends hleft hright hsorted hsorted' hlt).imp fun _ out hout => ?_
        rw [hout, hgrows₂.out, hgrows.out]
        rfl
      · intro hwne
        have hcount : UInt32.ofNat
            (common (wordLines s.index word) (wordLines s.index next)).length = 0 ↔ _ :=
          ofNat_length_eq_zero (by omega)
        simp only [ends_bind, ends_output]
        rw [intersectToFile_eq hleft hright hsorted hsorted', ends_pure]
        simp only [ends_ite, ends_output, emitBlankLine, ends_emit, hcount]
        constructor
        · intro hempty
          have hnil : sharedLines s.index (wordLines s.index word) (next :: words) = [] := by
            rw [sharedLines, List.foldl_cons, hempty]
            exact sharedLines_nil hwords.tail.tail
          rw [hnil, List.flatMap_nil, List.append_nil, hgrows₂.out, hgrows.out]
        · intro _
          have hindex : s₂.index = s.index := hgrows₂.index.trans hgrows.index
          have hrest := multiStages_ends (s := s₂) hgrows₂.sound (hindex.symm ▸ hwords.tail.tail) hwne
            (common_sorted hsorted hsorted')
            (fun k hk => hlt k (common_subset hsorted hsorted' hk)) (by omega)
          refine hrest.imp fun _ s' hout => ?_
          rw [hout, hindex, hgrows₂.out, hgrows.out]
          rfl

lemma handleMulti_ends {query : Bytes} (hs : CacheSound s)
    (hcollect : collectQueryWords s.index.lexicon query = some words) (hne : words ≠ [])
    (hwords : InLines s.index words) (hlines : SharedBy s.index words lines) :
    Ends (handleMulti query) (fun _ s' => s'.out = s.out ++ lines.flatMap lineNoRef ++ [newline])
      (fun _ _ => False) s := by
  have hquery : queryWords query s = .ok (some words) s := by
    rw [← hcollect]
    rfl
  obtain ⟨word, rest, rfl⟩ := List.exists_cons_of_ne_nil hne
  rw [handleMulti, ends_bind]
  refine ends_of_ok hquery ?_
  change Ends ((word :: rest).forM (fun word => ensureWordCache word.1 word.2) >>= _) _ _ s
  rw [ends_bind]
  refine (ensureAll_ends hs hwords.known).imp fun _ s₁ hgrows => ?_
  rw [ends_bind]
  have hsorted : sortedWords (word :: rest) s₁ =
      .ok (sortQueryWordsByCacheSize s₁.cacheCount (word :: rest)) s₁ := rfl
  have hperm := sort_perm s₁.cacheCount (word :: rest)
  have hperm' := hwords.perm hperm
  refine ends_of_ok hsorted ?_
  have hne' : sortQueryWordsByCacheSize s₁.cacheCount (word :: rest) ≠ [] := by
    intro hnil
    rw [hnil] at hperm
    exact List.cons_ne_nil _ _ hperm.nil_eq.symm
  have hlines' : SharedBy s₁.index (sortQueryWordsByCacheSize s₁.cacheCount (word :: rest)) lines := by
    refine ⟨hlines.1, fun k => ?_⟩
    rw [hgrows.index, hlines.2]
    exact forall_congr' fun w => imp_congr_left hperm.mem_iff.symm
  have hend := multiSources_ends hgrows.sound (hgrows.index.symm ▸ hperm') hne' hlines'
  rw [hgrows.out] at hend
  revert hend
  generalize sortQueryWordsByCacheSize s₁.cacheCount (word :: rest) = sorted
  intro hend
  rcases sorted with _ | ⟨_, _ | ⟨_, _⟩⟩
  · exact hend
  · exact hend
  · exact hend

end SystemsLab.Search
