import SystemsLab.Search.SingleWord

namespace SystemsLab.Search

open CLib Effects

structure MatchAt (line : Bytes) (start : ℕ) (phrase : Bytes) : Prop where
  begins : BeginsAt line start
  fits : start + phrase.length ≤ line.length
  equal : lowerBytes ((line.drop start).take phrase.length) = lowerBytes phrase
  stops : StopsAt line (start + phrase.length)

def PhraseAt (input phrase : Bytes) (p : ℕ × ℕ) : Prop :=
  ∃ line, lineAt input p.1 = some line ∧ MatchAt line p.2 phrase

def matchTest (line : Bytes) (start : ℕ) (phrase : Bytes) : Bool :=
  decide (start + phrase.length ≤ line.length) &&
    caseEqualBytes (line.drop start) phrase phrase.length &&
      phraseHasValidEnd line start phrase.length

def firstWord (phrase : Bytes) : Bytes := phrase.takeWhile (!isWordSep ·)

variable {input line phrase query token : Bytes} {start i : ℕ} {c : UInt8} {index : Index} {s : Session}
  {mt : PhraseMatch} {r : OccRecord} {out : Bytes} {E : Unit → Bytes → Prop}

lemma phraseHasValidEnd_iff (hfits : start + phrase.length ≤ line.length) :
    phraseHasValidEnd line start phrase.length = true ↔ StopsAt line (start + phrase.length) := by
  simp only [phraseHasValidEnd, Bool.or_eq_true, beq_iff_eq, StopsAt]
  refine or_congr_right' fun hne => ?_
  have hlt : start + phrase.length < line.length := lt_of_le_of_ne hfits hne
  simp [SepAt, List.getD_eq_getElem?_getD, List.getElem?_eq_getElem hlt]

lemma matchTest_iff : matchTest line start phrase = true ↔
    start + phrase.length ≤ line.length ∧
      lowerBytes ((line.drop start).take phrase.length) = lowerBytes phrase ∧
        StopsAt line (start + phrase.length) := by
  rw [matchTest, Bool.and_eq_true, Bool.and_eq_true, decide_eq_true_eq, and_assoc]
  refine and_congr_right fun hfits => ?_
  rw [phraseHasValidEnd_iff hfits, caseEqualBytes, beq_iff_eq, List.take_length]
  exact Iff.rfl

lemma matchAt_iff : MatchAt line start phrase ↔
    BeginsAt line start ∧ matchTest line start phrase = true := by
  rw [matchTest_iff]
  constructor
  · rintro ⟨hbegins, hfits, hequal, hstops⟩
    exact ⟨hbegins, hfits, hequal, hstops⟩
  · rintro ⟨hbegins, hfits, hequal, hstops⟩
    exact ⟨hbegins, hfits, hequal, hstops⟩

lemma isWordSep_iff : isWordSep c = true ↔ c.toNat = 32 ∨ c.toNat = 9 := by
  rw [isWordSep, Bool.or_eq_true, beq_iff_eq, beq_iff_eq, ← UInt8.toNat_inj, ← UInt8.toNat_inj]
  exact Iff.rfl

lemma isWordSep_asciiLower (c : UInt8) : isWordSep (asciiLower c) = isWordSep c := by
  rw [Bool.eq_iff_iff, isWordSep_iff, isWordSep_iff, toNat_asciiLower]
  split_ifs <;> omega

lemma sep_of_lowerBytes {a b : Bytes} (h : lowerBytes a = lowerBytes b) :
    a.map isWordSep = b.map isWordSep := by
  have hmap : ∀ d : Bytes, d.map isWordSep = (lowerBytes d).map isWordSep := by
    intro d
    rw [lowerBytes, List.map_map]
    exact (List.map_congr_left fun c _ => isWordSep_asciiLower c).symm
  rw [hmap a, hmap b, h]

namespace MatchAt

lemma getElem? (h : MatchAt line start phrase) (hi : phrase[i]? = some c) :
    ∃ d, (line)[start + i]? = some d ∧ isWordSep d = isWordSep c := by
  have hseps := congrArg (·[i]?) (sep_of_lowerBytes h.equal)
  have hlt := (List.getElem?_eq_some_iff.mp hi).1
  simp only [List.getElem?_map, hi, Option.map_some, List.getElem?_take_of_lt hlt,
    List.getElem?_drop, Option.map_eq_some_iff] at hseps
  exact hseps

lemma firstWord (h : MatchAt line start phrase) (hne : phrase ≠ [])
    (hhead : ∀ c, phrase.head? = some c → isWordSep c = false) :
    ∃ token, IsWordAt line start token ∧ lowerBytes token = lowerBytes (firstWord phrase) := by
  have hsplit : Search.firstWord phrase ++ phrase.dropWhile (!isWordSep ·) = phrase :=
    List.takeWhile_append_dropWhile
  have hpre : Search.firstWord phrase <+: phrase := List.takeWhile_prefix _
  have hcase : lowerBytes ((line.drop start).take (Search.firstWord phrase).length) =
      lowerBytes (Search.firstWord phrase) := by
    have htake := congrArg (List.take (Search.firstWord phrase).length) h.equal
    rw [lowerBytes, lowerBytes, ← List.map_take, ← List.map_take, List.take_take,
      Nat.min_eq_left hpre.length_le, ← List.prefix_iff_eq_take.mp hpre] at htake
    exact htake
  have hseps := sep_of_lowerBytes hcase
  have hlength := congrArg List.length hcase
  rw [length_lowerBytes, length_lowerBytes] at hlength
  refine ⟨_, ⟨?_, ?_, List.take_prefix _ _, h.begins, ?_⟩, hcase⟩
  · intro h0
    rw [h0, List.length_nil] at hlength
    obtain ⟨c, t, rfl⟩ := List.exists_cons_of_ne_nil hne
    rw [Search.firstWord, List.takeWhile_cons_of_pos (by rw [hhead c rfl]; rfl)] at hlength
    cases hlength
  · intro c hc
    have hmem := List.mem_map_of_mem (f := isWordSep) hc
    rw [hseps] at hmem
    obtain ⟨d, hd, hdc⟩ := List.mem_map.mp hmem
    have hd := List.mem_takeWhile_imp hd
    rw [← hdc]
    rwa [Bool.not_eq_true'] at hd
  · rw [hlength]
    cases hrest : phrase.dropWhile (!isWordSep ·) with
    | nil =>
      rw [hrest, List.append_nil] at hsplit
      rw [hsplit]
      exact h.stops
    | cons d rest =>
      have hd : isWordSep d = true := head_dropWhile_sep (s := phrase) (by rw [hrest]; rfl)
      rw [hrest] at hsplit
      have hget : phrase[(Search.firstWord phrase).length]? = some d := by
        refine (congrArg (·[(Search.firstWord phrase).length]?) hsplit.symm).trans ?_
        simp
      obtain ⟨e, he, hsep⟩ := h.getElem? hget
      exact Or.inr ⟨e, he, hsep.trans hd⟩

end MatchAt

lemma Indexable.length_lt (h : Indexable input) : input.length < 2 ^ 64 := by
  have hall : ((linesOf input).map fun line => (rawLine line).length).sum = input.length := by
    rw [← List.length_flatMap, flatMap_rawLine]
  have hle : ((linesOf input).map fun line => (rawLine line).length).sum ≤
      ((linesOf input).map fun _ => 2 ^ 32).sum := by
    refine List.sum_le_sum fun line hline => ?_
    have hmem : line.1 ∈ cutLines input := by
      rw [← map_fst_linesOf]
      exact List.mem_map_of_mem hline
    have hlt := h.line _ hmem
    have hnl : (if line.2 then [newline] else []).length ≤ 1 := by
      split_ifs <;> simp
    rw [rawLine, List.length_append]
    omega
  have hcount : (linesOf input).length < 2 ^ 32 := by
    rw [← List.length_map Prod.fst, map_fst_linesOf]
    exact h.lines
  have hsum : ((linesOf input).map fun _ => 2 ^ 32).sum = (linesOf input).length * 2 ^ 32 := by
    simp
  rw [hall, hsum] at hle
  omega

lemma indexReadLine_lineAt (h : Indexable input) (k : UInt32) :
    indexReadLine (indexBuild input) k = lineAt input k.toNat := by
  have hcount : (linesOf input).length < 2 ^ 32 := by
    rw [← List.length_map Prod.fst, map_fst_linesOf]
    exact h.lines
  have h0 : k = 0 ↔ k.toNat = 0 := by rw [← UInt32.toNat_inj]; rfl
  rw [indexBuild_eq, indexReadLine_eq (flatMap_rawLine input) h.length_lt hcount
    (fun line => newline_not_mem), map_fst_linesOf, lineAt]
  simp only [h0]

def Buffered (input : Bytes) (mt : PhraseMatch) : Prop :=
  mt.cachedLineNo = 0 ∨ lineAt input mt.cachedLineNo.toNat = some mt.lineBuf

/-- What `phrase_consumer` prints for a record. -/
def matchRef (line phrase : Bytes) (r : OccRecord) : Bytes :=
  if matchTest line r.startIdx.toNat phrase then lineRef (r.lineNo.toNat, r.startIdx.toNat) else []

lemma phraseTests_ends {mt : PhraseMatch} (hmt : Buffered input mt) (hline : mt.lineBuf = line) :
    Ends (do
      if r.startIdx.toNat + phrase.length > mt.lineBuf.length then return mt
      else if !caseEqualBytes (mt.lineBuf.drop r.startIdx.toNat) phrase phrase.length then return mt
      else if !phraseHasValidEnd mt.lineBuf r.startIdx.toNat phrase.length then return mt
      else
        emitLineRef r.lineNo r.startIdx
        return mt : Emit PhraseMatch)
      (fun mt' out' => Buffered input mt' ∧ out' = out ++ matchRef line phrase r) E out := by
  subst hline
  have hfail : ∀ {b : Bool}, matchTest mt.lineBuf r.startIdx.toNat phrase = b → b = false →
      out = out ++ matchRef mt.lineBuf phrase r := by
    rintro b hb rfl
    rw [matchRef, hb]
    exact (List.append_nil out).symm
  simp only [ends_bind, ends_ite, ends_pure, hmt, true_and]
  refine ⟨fun hgt => hfail rfl ?_, fun hle => ⟨fun hcase => hfail rfl ?_, fun hcase =>
    ⟨fun hend => hfail rfl ?_, fun hend => ?_⟩⟩⟩
  · rw [matchTest, decide_eq_false (by omega), Bool.false_and, Bool.false_and]
  · rw [Bool.not_eq_true'] at hcase
    rw [matchTest, hcase, Bool.and_false, Bool.false_and]
  · rw [Bool.not_eq_true'] at hend
    rw [matchTest, hend, Bool.and_false]
  · rw [Bool.not_eq_true', Bool.not_eq_false] at hcase hend
    rw [matchRef, matchTest, hcase, hend, decide_eq_true (by omega), emitLineRef, writeU32_eq,
      writeU32_eq]
    rfl

lemma phraseConsumer_ends (h : Indexable input) (hmt : Buffered input mt)
    (hline : lineAt input r.lineNo.toNat = some line) :
    Ends (phraseConsumer (indexBuild input) phrase mt r)
      (fun mt' out' => Buffered input mt' ∧ out' = out ++ matchRef line phrase r) E out := by
  have hbuffered := hmt
  rw [phraseConsumer, ends_ite]
  constructor
  · intro _
    rw [indexReadLine_lineAt h, hline]
    exact phraseTests_ends (Or.inr hline) rfl
  · intro hsame
    rw [not_not] at hsame
    rcases hbuffered with h0 | hbuf
    · rw [← hsame, h0] at hline
      cases hline
    · rw [hsame, hline, Option.some.injEq] at hbuf
      exact phraseTests_ends hmt hbuf.symm

def tokenMatches (input phrase : Bytes) (t : Token) : Bool :=
  (lineAt input t.lineNo.toNat).any fun line => matchTest line t.start phrase

def phraseTokens (input phrase : Bytes) : List Token :=
  (wordTokens (textTokens input) (firstWord phrase)).filter (tokenMatches input phrase)

lemma exists_line (hcount : (cutLines input).length < 2 ^ 32) {t : Token} (ht : t ∈ textTokens input) :
    ∃ line, lineAt input t.lineNo.toNat = some line ∧ IsWordAt line t.start t.word := by
  obtain ⟨i, line, hline, hno, hword⟩ := mem_textTokens.mp ht
  refine ⟨line, ?_, hword⟩
  rw [hno, toNat_lineNo hcount hline, lineAt_succ]
  exact hline

lemma foldlM_phraseConsumer (h : Indexable input) (wordId : UInt32) {tokens : List Token}
    (htokens : ∀ t ∈ tokens, t ∈ textTokens input) (hmt : Buffered input mt) :
    Ends ((tokens.map (tokenRecord wordId)).foldlM (phraseConsumer (indexBuild input) phrase) mt)
      (fun _ out' => out' = out ++ tokenRefs (tokens.filter (tokenMatches input phrase))) E out := by
  induction tokens generalizing mt out with
  | nil => exact (List.append_nil out).symm
  | cons t tokens ih =>
    have ht := htokens t List.mem_cons_self
    obtain ⟨line, hline, -⟩ := exists_line h.lines ht
    have href : matchRef line phrase (tokenRecord wordId t) =
        tokenRefs ([t].filter (tokenMatches input phrase)) := by
      rw [matchRef, List.filter_singleton, tokenMatches, hline, Option.any_some]
      change (if matchTest line (UInt32.ofNat t.start).toNat phrase then _ else _) = _
      rw [toNat_start h ht]
      cases matchTest line t.start phrase with
      | false => rfl
      | true =>
        change lineRef (t.lineNo.toNat, (UInt32.ofNat t.start).toNat) = _
        rw [toNat_start h ht]
        exact (List.append_nil _).symm
    change Ends (phraseConsumer (indexBuild input) phrase mt (tokenRecord wordId t) >>= fun mt =>
      (tokens.map (tokenRecord wordId)).foldlM (phraseConsumer (indexBuild input) phrase) mt) _ _ _
    rw [ends_bind]
    refine (phraseConsumer_ends h hmt hline).imp fun mt' out₁ hfirst => ?_
    refine (ih (fun t' ht' => htokens t' (List.mem_cons_of_mem t ht')) hfirst.1).imp fun _ out₂ hend => ?_
    have hcons : (t :: tokens).filter (tokenMatches input phrase) =
        [t].filter (tokenMatches input phrase) ++ tokens.filter (tokenMatches input phrase) :=
      List.filter_append [t] tokens
    rw [hend, hfirst.2, href, hcons, List.append_assoc, tokenRefs, tokenRefs, tokenRefs, List.map_append,
      List.flatMap_append]

lemma handlePhrase_ends (h : Indexable input) (hs : CacheSound s) (hindex : s.index = indexBuild input)
    (hquery : phraseOf query = some phrase) :
    Ends (handlePhrase query)
      (fun _ s' => s'.out = s.out ++ tokenRefs (phraseTokens input phrase) ++ [newline])
      (fun _ _ => False) s := by
  have hcount := h.spellable.vocabulary_length
  rw [handlePhrase, hquery]
  simp only [ends_bind, ends_findExisting, hindex]
  rw [phraseTokens, firstWord]
  rcases h.spellable.posts.findExisting (by omega) (phrase.takeWhile (!isWordSep ·)) with
    ⟨hnone, hempty⟩ | ⟨w, hsome, hrecords⟩
  · rw [hnone, hempty]
    simp [emitBlankLine, tokenRefs]
  · rw [hsome]
    change Ends (ensureWordCache w.1 w.2 >>= _) _ _ s
    have hknown : Known s.index w := hindex ▸ lexiconFindExisting_known (indexBuild_sound input) hsome
    simp only [ends_bind, ends_output]
    refine (openWord_ends hs hknown _).imp fun _ s₁ hopen => hopen.imp ?_
    rintro file s₂ ⟨hgrows, rfl⟩
    rw [hindex, hrecords, scanPhrase]
    simp only [ends_bind, ends_get, ends_output, ends_modify]
    rw [scanCachedWord, scanFile_records, List.filter_true, hgrows.index, hindex]
    refine (foldlM_phraseConsumer h w.1 (fun t ht => (mem_wordTokens.mp ht).1) (Or.inl rfl)).imp
      fun _ out hout => ?_
    rw [emitBlankLine, ends_emit, hout, hgrows.out]

/-- `handle_phrase` for a first word without a cache file, where `cut` cuts the files that are read
into the pieces that `read` returns. -/
def handlePhraseFrom (cut : Bytes → List Bytes) (index : Index) (query : Bytes) : Emit Unit :=
  match phraseOf query with
  | none => emitBlankLine
  | some phrase =>
    match lexiconFindExisting index.lexicon (phrase.takeWhile (!isWordSep ·)) with
    | none => emitBlankLine
    | some (wordId, bucket) =>
      match scanPieces (fun r => r.wordId == wordId) cacheRecordConsumer []
        (cut (index.occFiles bucket.toNat)) ⟨[], 0⟩ with
      | .error e => throw e
      | .ok writer => do
        let _ ← scanPieces (fun _ => true) (phraseConsumer index phrase) [] (cut writer.out) ⟨[], 0⟩
        emitBlankLine

lemma handlePhraseFrom_ends (h : Indexable input) {cut : Bytes → List Bytes}
    (hcut : ∀ b, (cut b).flatten = b) (hquery : phraseOf query = some phrase) :
    Ends (handlePhraseFrom cut (indexBuild input) query)
      (fun _ out' => out' = out ++ tokenRefs (phraseTokens input phrase) ++ [newline])
      (fun _ _ => False) out := by
  have hcount := h.spellable.vocabulary_length
  rw [handlePhraseFrom, hquery, phraseTokens, firstWord]
  simp only
  rcases h.spellable.posts.findExisting (by omega) (phrase.takeWhile (!isWordSep ·)) with
    ⟨hnone, hempty⟩ | ⟨w, hsome, hrecords⟩
  · rw [hnone, hempty]
    simp [emitBlankLine, tokenRefs]
  · rw [hsome]
    simp only [cachePieces_eq input hcut w.1 w.2, ends_bind]
    rw [scanPieces_records _ _ _ _ (hcut _) (by decide), List.filter_true, hrecords]
    refine (foldlM_phraseConsumer h w.1 (fun t ht => (mem_wordTokens.mp ht).1) (Or.inl rfl)).imp
      fun _ out' hout => ?_
    rw [emitBlankLine, ends_emit, hout]

structure IsPhrase (phrase : Bytes) : Prop where
  ne_nil : phrase ≠ []
  no_quote : 34 ∉ phrase
  no_newline : newline ∉ phrase
  head : ∀ c, phrase.head? = some c → isWordSep c = false
  last : ∀ c, phrase.getLast? = some c → isWordSep c = false

def quoted (phrase : Bytes) : Bytes := 34 :: (phrase ++ [34])

lemma phraseOf_quoted (h : IsPhrase phrase) : phraseOf (quoted phrase) = some phrase := by
  have hhead : phrase.head?.any isWordSep = false := by
    cases hc : phrase.head? with
    | none => rfl
    | some c => exact h.head c hc
  have hlast : phrase.getLast?.any isWordSep = false := by
    cases hc : phrase.getLast? with
    | none => rfl
    | some c => exact h.last c hc
  have hquote : phrase.contains 34 = false := by simpa using h.no_quote
  have hends : ¬((quoted phrase).length < 2 ∨ (quoted phrase).head? ≠ some 34 ∨
      (quoted phrase).getLast? ≠ some 34) := by
    have hlen : (quoted phrase).length = phrase.length + 2 := by simp [quoted]
    have hend : (quoted phrase).getLast? = some 34 := by
      rw [quoted, ← List.cons_append, List.getLast?_concat]
    rintro (hlt | hne | hne)
    · omega
    · exact hne rfl
    · exact hne hend
  have hinner : (quoted phrase).tail.dropLast = phrase := List.dropLast_concat
  rw [phraseOf, if_neg hends]
  simp only [hinner, hhead, hlast, hquote, h.ne_nil, or_self, Bool.false_eq_true, if_false]

lemma quoted_of_phraseOf (h : phraseOf query = some phrase) (hnl : newline ∉ phrase) :
    IsPhrase phrase ∧ query = quoted phrase := by
  rw [phraseOf] at h
  split_ifs at h with hends
  simp only at h
  split_ifs at h with hbad
  obtain rfl := Option.some.inj h
  push Not at hends hbad
  obtain ⟨hlen, hhead, hlast⟩ := hends
  obtain ⟨hne, hfirst, hend, hquote⟩ := hbad
  refine ⟨⟨hne, by simpa using hquote, hnl, fun c hc => ?_, fun c hc => ?_⟩, ?_⟩
  · rw [hc] at hfirst
    simpa using hfirst
  · rw [hc] at hend
    simpa using hend
  · cases query with
    | nil => cases hhead
    | cons c rest =>
      have hc : c = 34 := Option.some.inj hhead
      subst hc
      rcases List.eq_nil_or_concat rest with rfl | ⟨body, d, rfl⟩
      · exact absurd hlen (by decide)
      · rw [List.concat_eq_append, ← List.cons_append, List.getLast?_concat, Option.some.injEq] at hlast
        subst hlast
        simp [quoted]

lemma mem_phraseTokens (h : Indexable input) {p : ℕ × ℕ} (hne : phrase ≠ [])
    (hhead : ∀ c, phrase.head? = some c → isWordSep c = false) :
    p ∈ (phraseTokens input phrase).map Token.place ↔ PhraseAt input phrase p := by
  constructor
  · intro hp
    obtain ⟨t, ht, rfl⟩ := List.mem_map.mp hp
    obtain ⟨ht, hmatches⟩ := List.mem_filter.mp ht
    obtain ⟨line, hline, hword⟩ := exists_line h.lines (mem_wordTokens.mp ht).1
    rw [tokenMatches, hline, Option.any_some] at hmatches
    exact ⟨line, hline, matchAt_iff.mpr ⟨hword.begins, hmatches⟩⟩
  · rintro ⟨line, hline, hmatch⟩
    obtain ⟨token, hword, hcase⟩ := hmatch.firstWord hne hhead
    have hplace : WordAt input (firstWord phrase) p := ⟨line, hline, token, hword, hcase⟩
    obtain ⟨t, ht, rfl⟩ := List.mem_map.mp ((mem_places h.lines).mpr hplace)
    refine List.mem_map_of_mem (List.mem_filter.mpr ⟨ht, ?_⟩)
    change lineAt input t.lineNo.toNat = some line at hline
    rw [tokenMatches, hline, Option.any_some]
    exact (matchAt_iff.mp hmatch).2

lemma phraseTokens_sorted (h : Indexable input) (phrase : Bytes) :
    ((phraseTokens input phrase).map Token.place).Pairwise PlaceLT :=
  (places_sorted h.lines _).sublist (List.filter_sublist.map Token.place)

lemma newline_of_asciiLower (h : asciiLower c = newline) : c = newline := by
  have hnat := congrArg UInt8.toNat h
  rw [toNat_asciiLower] at hnat
  have hten : newline.toNat = 10 := rfl
  rw [← UInt8.toNat_inj]
  split_ifs at hnat <;> omega

lemma phraseTokens_newline (h : Indexable input) (hnl : newline ∈ phrase) :
    phraseTokens input phrase = [] := by
  rw [List.eq_nil_iff_forall_not_mem]
  intro t ht
  obtain ⟨ht, hmatches⟩ := List.mem_filter.mp ht
  obtain ⟨line, hline, -⟩ := exists_line h.lines (mem_wordTokens.mp ht).1
  rw [tokenMatches, hline, Option.any_some, matchTest_iff] at hmatches
  have hmem : asciiLower newline ∈ lowerBytes phrase := List.mem_map_of_mem hnl
  rw [← hmatches.2.1] at hmem
  obtain ⟨c, hc, hlow⟩ := List.mem_map.mp hmem
  have hc' : c = newline := newline_of_asciiLower hlow
  obtain ⟨i, -, hget⟩ := exists_lineAt hline
  have hcut := List.mem_of_getElem? hget
  rw [← map_fst_linesOf] at hcut
  obtain ⟨raw, hraw, rfl⟩ := List.mem_map.mp hcut
  exact newline_not_mem hraw (hc' ▸ List.mem_of_mem_drop (List.mem_of_mem_take hc))

lemma handleQuery_phrase {Q : Unit → Session → Prop} {F : Unit → Session → Prop} (hquote : 34 ∈ query)
    (h : Ends (handlePhrase query) Q F (queryScratchReset s)) : Ends (handleQuery query) Q F s := by
  have hcontains : query.contains 34 = true := by simpa using hquote
  rw [handleQuery, hcontains, ends_bind, ends_modify]
  exact h

theorem phrase_query_places (h : Indexable input) (history : List Bytes) :
    (∀ phrase, IsPhrase phrase → ∃ places : List (ℕ × ℕ), places.Pairwise PlaceLT ∧
      (∀ p, p ∈ places ↔ PhraseAt input phrase p) ∧
      (answer (quoted phrase) (afterQueries input history)).1 =
        (true, places.flatMap lineRef ++ [newline]) ∧
      ∀ (chunks : List Bytes) (cut : Bytes → List Bytes), [] ∉ chunks → chunks.flatten = input →
        (∀ b, (cut b).flatten = b) →
          handlePhraseFrom cut (indexBuildFrom input chunks) (quoted phrase) [] =
            .ok () (places.flatMap lineRef ++ [newline])) ∧
    ∀ query, 34 ∈ query → (∀ phrase, IsPhrase phrase → query ≠ quoted phrase) →
      (answer query (afterQueries input history)).1 = (true, [newline]) ∧
      ∀ (chunks : List Bytes) (cut : Bytes → List Bytes), [] ∉ chunks → chunks.flatten = input →
        (∀ b, (cut b).flatten = b) →
          handlePhraseFrom cut (indexBuildFrom input chunks) query [] = .ok () [newline] := by
  have hanswer : ∀ {query phrase : Bytes}, 34 ∈ query → phraseOf query = some phrase →
      (answer query (afterQueries input history)).1 =
        (true, tokenRefs (phraseTokens input phrase) ++ [newline]) := by
    intro query phrase hquote hphrase
    refine answer_eq fun s hs hindex hout => handleQuery_phrase hquote ?_
    have hclear : CacheSound (queryScratchReset s) := ⟨hs.index, hs.path_lt, hs.holds⟩
    refine (handlePhrase_ends h hclear hindex hphrase).imp fun _ s' hs' => ?_
    change s'.out = s.out ++ _ ++ _ at hs'
    rw [hs', hout, List.nil_append]
  have hread : ∀ {query phrase : Bytes} {chunks : List Bytes} {cut : Bytes → List Bytes},
      phraseOf query = some phrase → [] ∉ chunks → chunks.flatten = input →
        (∀ b, (cut b).flatten = b) → handlePhraseFrom cut (indexBuildFrom input chunks) query [] =
          .ok () (tokenRefs (phraseTokens input phrase) ++ [newline]) := by
    intro query phrase chunks cut hphrase hchunks hflat hcut
    rw [indexBuildFrom_eq hchunks hflat]
    have hends : Ends (handlePhraseFrom cut (indexBuild input) query) _ _ [] :=
      handlePhraseFrom_ends h hcut hphrase
    obtain ⟨_, out, hok, rfl⟩ := hends.exists_ok
    exact hok
  constructor
  · intro phrase hphrase
    have hof := phraseOf_quoted hphrase
    exact ⟨_, phraseTokens_sorted h phrase,
      fun p => mem_phraseTokens h hphrase.ne_nil hphrase.head,
      hanswer List.mem_cons_self hof, fun chunks cut => hread hof⟩
  · intro query hquote hother
    cases hof : phraseOf query with
    | none =>
      refine ⟨answer_eq fun s hs hindex hout => handleQuery_phrase hquote ?_, fun chunks cut _ _ _ => ?_⟩
      · rw [handlePhrase, hof]
        simp only [ends_output, emitBlankLine, ends_emit]
        change s.out ++ _ = _
        rw [hout, List.nil_append]
      · rw [handlePhraseFrom, hof]
        rfl
    | some phrase =>
      have hnl : newline ∈ phrase := by
        by_contra hnl
        obtain ⟨hphrase, heq⟩ := quoted_of_phraseOf hof hnl
        exact hother phrase hphrase heq
      have hempty : tokenRefs (phraseTokens input phrase) ++ [newline] = [newline] := by
        rw [phraseTokens_newline h hnl]
        rfl
      refine ⟨(hanswer hquote hof).trans (by rw [hempty]), fun chunks cut hchunks hflat hcut => ?_⟩
      rw [hread hof hchunks hflat hcut, hempty]

theorem phrase_query_places_inner_spaces :
    ∃ places : List (ℕ × ℕ), places.Pairwise PlaceLT ∧
      (∀ p, p ∈ places ↔ PhraseAt (ascii "a  B a  b") (ascii "A  b") p) ∧
      (answer (ascii "\"A  b\"") (afterQueries (ascii "a  B a  b") [])).1 =
        (true, places.flatMap lineRef ++ [newline]) := by
  have hfits : Indexable (ascii "a  B a  b") := indexable_of_length (by decide)
  have hphrase : IsPhrase (ascii "A  b") := by
    refine ⟨by decide, by decide, by decide, ?_, ?_⟩
    · rintro c ⟨⟩
      rfl
    · rintro c ⟨⟩
      rfl
  obtain ⟨places, hsorted, hmem, hanswer, -⟩ := (phrase_query_places hfits []).1 _ hphrase
  exact ⟨places, hsorted, hmem, hanswer⟩

end SystemsLab.Search
