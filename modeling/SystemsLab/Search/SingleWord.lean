import SystemsLab.Search.Places

namespace SystemsLab.Search

open CLib Effects

/-- `handle_single` for a word without a cache file, where `cut` cuts the files that are read into the
pieces that `read` returns. -/
def handleSingleFrom (cut : Bytes → List Bytes) (index : Index) (query : Bytes) : Emit Unit :=
  match lexiconFindExisting index.lexicon query with
  | none => emitBlankLine
  | some (wordId, bucket) =>
    match scanPieces (fun r => r.wordId == wordId) cacheRecordConsumer []
      (cut (index.occFiles bucket.toNat)) ⟨[], 0⟩ with
    | .error e => throw e
    | .ok writer => do
      scanPieces (fun _ => true) streamWordConsumer [] (cut writer.out) ()
      emitBlankLine

variable {input word left right : Bytes} {s : Session} {E : Unit → Bytes → Prop} {out : Bytes}

lemma wordsFrom_single (hleft : ∀ c ∈ left, isWordSep c = true)
    (hright : ∀ c ∈ right, isWordSep c = true) (hne : word ≠ [])
    (hsep : ∀ c ∈ word, isWordSep c = false) :
    wordsFrom 0 (left ++ (word ++ right)) = [(left.length, word)] := by
  obtain ⟨c, t, rfl⟩ := List.exists_cons_of_ne_nil hne
  have hc : isWordSep c = false := hsep c List.mem_cons_self
  have hnot : ∀ d ∈ c :: t, (!isWordSep d) = true := fun d hd => by rw [hsep d hd]; rfl
  have hright' : right.takeWhile (!isWordSep ·) = [] := by
    cases right with
    | nil => rfl
    | cons d right =>
      rw [List.takeWhile_cons_of_neg]
      rw [hright d List.mem_cons_self]
      exact Bool.false_ne_true
  have hdrop : (left ++ (c :: t ++ right)).dropWhile isWordSep = c :: (t ++ right) := by
    rw [List.dropWhile_append_of_pos hleft, List.cons_append, List.dropWhile_cons_of_neg]
    rw [hc]
    exact Bool.false_ne_true
  have htake : (c :: (t ++ right)).takeWhile (!isWordSep ·) = c :: t := by
    rw [← List.cons_append, List.takeWhile_append_of_pos hnot, hright', List.append_nil]
  have hrest : (c :: (t ++ right)).dropWhile (!isWordSep ·) = right := by
    have hall := List.takeWhile_append_dropWhile (p := (!isWordSep ·)) (l := c :: (t ++ right))
    rw [htake, ← List.cons_append] at hall
    exact List.append_cancel_left hall
  have hlen : (left ++ (c :: t ++ right)).length - (c :: (t ++ right)).length = left.length := by
    rw [← List.cons_append, List.length_append, Nat.add_sub_cancel]
  rw [wordsFrom_cons hdrop, htake, hrest, hlen, Nat.zero_add]
  rw [wordsFrom_nil (List.dropWhile_eq_nil_iff.mpr hright)]

def tokenRefs (tokens : List Token) : Bytes := (tokens.map Token.place).flatMap lineRef

lemma foldlM_streamWordConsumer {tokens : List Token} (wordId : UInt32)
    (hstart : ∀ t ∈ tokens, (UInt32.ofNat t.start).toNat = t.start) :
    Ends ((tokens.map (tokenRecord wordId)).foldlM streamWordConsumer ())
      (fun _ out' => out' = out ++ tokenRefs tokens) E out := by
  induction tokens generalizing out with
  | nil => exact (List.append_nil out).symm
  | cons t tokens ih =>
    have href : writeU32 t.lineNo ++ ascii ":" ++ writeU32 (UInt32.ofNat t.start) ++ ascii " " =
        lineRef t.place := by
      rw [writeU32_eq, writeU32_eq, hstart t List.mem_cons_self]
      rfl
    change Ends (emitLineRef t.lineNo (UInt32.ofNat t.start) >>= fun _ =>
      (tokens.map (tokenRecord wordId)).foldlM streamWordConsumer ()) _ _ _
    rw [ends_bind, emitLineRef, ends_emit, href]
    refine (ih fun t' ht' => hstart t' (List.mem_cons_of_mem t ht')).imp fun _ out' hout' => ?_
    rw [hout', List.append_assoc]
    rfl

lemma wordTokens_start (h : Indexable input) (word : Bytes) :
    ∀ t ∈ wordTokens (textTokens input) word, (UInt32.ofNat t.start).toNat = t.start :=
  fun _ ht => toNat_start h (mem_wordTokens.mp ht).1

lemma handleSingle_ends (h : Indexable input) (hs : CacheSound s) (hindex : s.index = indexBuild input)
    (hne : word ≠ []) :
    Ends (handleSingle word)
      (fun _ s' => s'.out = s.out ++ tokenRefs (wordTokens (textTokens input) word) ++ [newline])
      (fun _ _ => False) s := by
  have hcount := h.spellable.vocabulary_length
  rw [handleSingle, if_neg hne, ends_bind, ends_findExisting, hindex]
  rcases h.spellable.posts.findExisting (by omega) word with ⟨hnone, hempty⟩ | ⟨w, hsome, hrecords⟩
  · rw [hnone, hempty]
    simp [emitBlankLine, tokenRefs]
  · rw [hsome]
    change Ends (ensureWordCache w.1 w.2 >>= _) _ _ s
    have hknown : Known s.index w := hindex ▸ lexiconFindExisting_known (indexBuild_sound input) hsome
    simp only [ends_bind, ends_output]
    refine (openWord_ends hs hknown _).imp fun _ s₁ hopen => hopen.imp ?_
    rintro file s₂ ⟨hgrows, rfl⟩
    rw [hindex, hrecords, scanCachedWord, scanFile_records, List.filter_true]
    refine (foldlM_streamWordConsumer w.1 (wordTokens_start h word)).imp fun _ out hout => ?_
    rw [emitBlankLine, ends_emit, hout, hgrows.out]

lemma cachePieces_eq (input : Bytes) {cut : Bytes → List Bytes} (hcut : ∀ b, (cut b).flatten = b)
    (wordId bucket : UInt32) :
    scanPieces (fun r => r.wordId == wordId) cacheRecordConsumer []
        (cut ((indexBuild input).occFiles bucket.toNat)) ⟨[], 0⟩ =
      .ok ⟨(wordRecords (indexBuild input) wordId bucket).flatMap OccRecord.bytes,
        UInt32.ofNat (wordRecords (indexBuild input) wordId bucket).length⟩ := by
  obtain ⟨rs, hrs⟩ := (indexBuild_sound input).records bucket.toNat
  have hpieces : [] ++ (cut ((indexBuild input).occFiles bucket.toNat)).flatten =
      rs.flatMap OccRecord.bytes := (hcut _).trans hrs
  rw [← cacheOf_eq (indexBuild_sound input), cacheOf, scanPieces_records _ _ _ _ hpieces (by decide),
    hrs, scanFile_records]

lemma handleSingleFrom_ends (h : Indexable input) {cut : Bytes → List Bytes}
    (hcut : ∀ b, (cut b).flatten = b) :
    Ends (handleSingleFrom cut (indexBuild input) word)
      (fun _ out' => out' = out ++ tokenRefs (wordTokens (textTokens input) word) ++ [newline])
      (fun _ _ => False) out := by
  have hcount := h.spellable.vocabulary_length
  rw [handleSingleFrom]
  rcases h.spellable.posts.findExisting (by omega) word with ⟨hnone, hempty⟩ | ⟨w, hsome, hrecords⟩
  · rw [hnone, hempty]
    simp [emitBlankLine, tokenRefs]
  · rw [hsome]
    simp only [cachePieces_eq input hcut w.1 w.2, ends_bind]
    rw [scanPieces_records _ _ _ _ (hcut _) (by decide), List.filter_true, hrecords]
    refine (foldlM_streamWordConsumer w.1 (wordTokens_start h word)).imp fun _ out' hout => ?_
    rw [emitBlankLine, ends_emit, hout]

theorem single_query_places (h : Indexable input) (history : List Bytes) {query : Bytes}
    (hquery : query = left ++ (word ++ right)) (hleft : ∀ c ∈ left, isWordSep c = true)
    (hright : ∀ c ∈ right, isWordSep c = true) (hne : word ≠ [])
    (hsep : ∀ c ∈ word, isWordSep c = false) (hquote : 34 ∉ query) (hstar : 42 ∉ query) :
    ∃ places : List (ℕ × ℕ), places.Pairwise PlaceLT ∧ (∀ p, p ∈ places ↔ WordAt input word p) ∧
      (answer query (afterQueries input history)).1 = (true, places.flatMap lineRef ++ [newline]) ∧
      ∀ (chunks : List Bytes) (cut : Bytes → List Bytes), [] ∉ chunks → chunks.flatten = input →
        (∀ b, (cut b).flatten = b) →
          handleSingleFrom cut (indexBuildFrom input chunks) word [] =
            .ok () (places.flatMap lineRef ++ [newline]) := by
  refine ⟨(wordTokens (textTokens input) word).map Token.place, places_sorted h.lines word,
    fun p => mem_places h.lines, ?_, ?_⟩
  · refine answer_eq fun s hs hindex hout => ?_
    have hwords : wordsFrom 0 query = [(left.length, word)] :=
      hquery ▸ wordsFrom_single hleft hright hne hsep
    have hquote' : query.contains 34 = false := by simpa using hquote
    have hstar' : query.contains 42 = false := by simpa using hstar
    rw [handleQuery, hquote', hstar', hwords, ends_bind, ends_modify]
    have hclear : CacheSound (queryScratchReset s) := ⟨hs.index, hs.path_lt, hs.holds⟩
    refine (handleSingle_ends h hclear hindex hne).imp fun _ s' hs' => ?_
    rw [hs']
    change s.out ++ _ ++ _ = _
    rw [hout, List.nil_append]
    rfl
  · intro chunks cut hchunks hflat hcut
    rw [indexBuildFrom_eq hchunks hflat]
    have hends : Ends (handleSingleFrom cut (indexBuild input) word) _ _ [] :=
      handleSingleFrom_ends h hcut
    obtain ⟨_, out, hok, rfl⟩ := hends.exists_ok
    exact hok

theorem single_query_places_upper_case :
    ∃ places : List (ℕ × ℕ), places.Pairwise PlaceLT ∧
      (∀ p, p ∈ places ↔ WordAt (ascii "ab cd\n aB") (ascii "AB") p) ∧
      (answer (ascii " AB") (afterQueries (ascii "ab cd\n aB") [])).1 =
        (true, places.flatMap lineRef ++ [newline]) := by
  have hfits : Indexable (ascii "ab cd\n aB") := indexable_of_length (by decide)
  have hquery : ascii " AB" = ascii " " ++ (ascii "AB" ++ ([] : Bytes)) := rfl
  have hleft : ∀ c ∈ ascii " ", isWordSep c = true := List.all_eq_true.mp rfl
  have h := single_query_places hfits [] hquery hleft nofun (by decide) (no_sep_of_any rfl)
    (by decide) (by decide)
  obtain ⟨places, hsorted, hmem, hanswer, -⟩ := h
  exact ⟨places, hsorted, hmem, hanswer⟩

end SystemsLab.Search
