import SystemsLab.Search.Caches
import SystemsLab.Search.OffsetTable
import SystemsLab.Search.Tokens

namespace SystemsLab.Search

open CLib

structure Token where
  lineNo : UInt32
  start : ℕ
  word : Bytes

def tokensOf (lines : List (Bytes × UInt32)) : List Token :=
  lines.flatMap fun line => (wordsFrom 0 line.1).map fun p => ⟨line.2, p.1, p.2⟩

def textTokens (input : Bytes) : List Token := tokensOf (numbered (cutLines input))

def vocabulary (tokens : List Token) : List Bytes :=
  (tokens.map fun t => lowerBytes t.word).eraseDups

def recordOf (words : List Bytes) (t : Token) : OccRecord :=
  ⟨UInt32.ofNat (words.idxOf (lowerBytes t.word)), t.lineNo, UInt32.ofNat t.start⟩

def tokenBucket (t : Token) : ℕ := (wordBucket (lowerBytes t.word)).toNat

def bucketRecords (tokens : List Token) (bucket : ℕ) : List OccRecord :=
  (tokens.filter fun t => tokenBucket t == bucket).map (recordOf (vocabulary tokens))

structure Index.Posts (index : Index) (tokens : List Token) : Prop where
  lexicon : index.lexicon.Spells (vocabulary tokens)
  records : ∀ bucket, index.occFiles bucket = (bucketRecords tokens bucket).flatMap OccRecord.bytes

variable {index : Index} {tokens : List Token} {t : Token}

lemma vocabulary_concat (tokens : List Token) (t : Token) :
    vocabulary (tokens ++ [t]) = note (vocabulary tokens) (lowerBytes t.word) := by
  rw [vocabulary, List.map_append]
  exact eraseDups_concat _ _

lemma prefix_vocabulary (tokens more : List Token) :
    vocabulary tokens <+: vocabulary (tokens ++ more) := by
  induction more using List.reverseRecOn with
  | nil => rw [List.append_nil]
  | append_singleton more t ih =>
    rw [← List.append_assoc, vocabulary_concat]
    exact ih.trans (prefix_note _ _)

lemma mem_vocabulary {word : Bytes} :
    word ∈ vocabulary tokens ↔ ∃ t ∈ tokens, lowerBytes t.word = word := by
  rw [vocabulary, List.mem_eraseDups, List.mem_map]

lemma recordOf_prefix {words words' : List Bytes} (hpre : words <+: words')
    (hmem : lowerBytes t.word ∈ words) : recordOf words' t = recordOf words t := by
  obtain ⟨more, rfl⟩ := hpre
  rw [recordOf, recordOf, List.idxOf_append_of_mem hmem]

lemma bucketRecords_concat (tokens : List Token) (t : Token) (bucket : ℕ) :
    bucketRecords (tokens ++ [t]) bucket =
      bucketRecords tokens bucket ++
        if tokenBucket t = bucket then [recordOf (vocabulary (tokens ++ [t])) t] else [] := by
  rw [bucketRecords, List.filter_append, List.map_append, bucketRecords]
  congr 1
  · refine List.map_congr_left fun t' ht' => ?_
    have hmem := List.mem_of_mem_filter ht'
    exact recordOf_prefix (prefix_vocabulary tokens [t]) (mem_vocabulary.mpr ⟨t', hmem, rfl⟩)
  · by_cases hb : tokenBucket t = bucket
    · simp [hb]
    · simp [hb]

lemma processWord_posts (h : index.Posts tokens) (hshort : t.word.length < 2 ^ 32)
    (hcount : (vocabulary (tokens ++ [t])).length < 2 ^ 32 - 1) :
    (processWord t.lineNo index (t.start, t.word)).Posts (tokens ++ [t]) := by
  rw [vocabulary_concat] at hcount
  obtain ⟨hspells, hanswer⟩ := h.lexicon.findOrAdd hshort hcount
  have hmem : lowerBytes t.word ∈ vocabulary (tokens ++ [t]) :=
    mem_vocabulary.mpr ⟨t, List.mem_append_right _ (List.mem_singleton_self t), rfl⟩
  rw [← vocabulary_concat] at hspells hanswer
  rw [locate, if_pos hmem, Option.some.injEq] at hanswer
  have hid := congrArg Prod.fst hanswer
  have hbucket := congrArg Prod.snd hanswer
  refine ⟨hspells, fun bucket => ?_⟩
  rw [bucketRecords_concat, List.flatMap_append, ← h.records bucket]
  simp only [processWord, hid, hbucket]
  by_cases hb : tokenBucket t = bucket
  · subst hb
    rw [if_pos rfl, List.flatMap_singleton]
    exact Function.update_self _ _ _
  · rw [if_neg hb, List.flatMap_nil, List.append_nil]
    exact Function.update_of_ne (Ne.symm hb) _ _

lemma indexInit_posts (input : Bytes) : (indexInit input).Posts [] where
  lexicon := lexiconInit_spells
  records _ := rfl

lemma processLines_eq (index : Index) (lines : List (Bytes × UInt32)) :
    processLines index lines =
      (tokensOf lines).foldl (fun index t => processWord t.lineNo index (t.start, t.word)) index := by
  rw [processLines, tokensOf, List.foldl_flatMap]
  congr 1
  funext index line
  rw [processLine, List.foldl_map]

lemma foldl_posts (h : index.Posts tokens) {more : List Token}
    (hshort : ∀ t ∈ more, t.word.length < 2 ^ 32)
    (hcount : (vocabulary (tokens ++ more)).length < 2 ^ 32 - 1) :
    (more.foldl (fun index t => processWord t.lineNo index (t.start, t.word)) index).Posts
      (tokens ++ more) := by
  induction more generalizing index tokens with
  | nil => rwa [List.append_nil]
  | cons t more ih =>
    have happ : tokens ++ t :: more = (tokens ++ [t]) ++ more :=
      (List.append_assoc tokens [t] more).symm
    rw [happ] at hcount ⊢
    have hle := (prefix_vocabulary (tokens ++ [t]) more).length_le
    exact ih (processWord_posts h (hshort t List.mem_cons_self) (by omega))
      (fun t' ht' => hshort t' (List.mem_cons_of_mem t ht')) hcount

lemma indexBuild_posts {input : Bytes} (hshort : ∀ t ∈ textTokens input, t.word.length < 2 ^ 32)
    (hcount : (vocabulary (textTokens input)).length < 2 ^ 32 - 1) :
    (indexBuild input).Posts (textTokens input) := by
  have hbuilt := foldl_posts (indexInit_posts input) hshort hcount
  rw [List.nil_append, textTokens, ← processLines_eq, ← map_fst_linesOf] at hbuilt
  rw [textTokens, ← map_fst_linesOf, indexBuild_eq]
  exact ⟨hbuilt.lexicon, hbuilt.records⟩

lemma Index.Posts.wordRecords_eq (h : index.Posts tokens) (hcount : (vocabulary tokens).length < 2 ^ 32)
    {word : Bytes} {wordId bucket : UInt32}
    (hword : locate (vocabulary tokens) word = some (wordId, bucket)) :
    wordRecords index wordId bucket =
      (tokens.filter fun t => lowerBytes t.word == word).map fun t =>
        ⟨wordId, t.lineNo, UInt32.ofNat t.start⟩ := by
  rw [locate] at hword
  split_ifs at hword with hmem
  obtain ⟨rfl, rfl⟩ := Prod.mk.inj (Option.some.inj hword)
  have hsame : ∀ t ∈ tokens, ((UInt32.ofNat ((vocabulary tokens).idxOf (lowerBytes t.word)) ==
      UInt32.ofNat ((vocabulary tokens).idxOf word)) = true ↔ lowerBytes t.word = word) := by
    intro t ht
    have hmem' := mem_vocabulary.mpr ⟨t, ht, rfl⟩
    have hlocate : ∀ w ∈ vocabulary tokens, locate (vocabulary tokens) w = some (_, _) :=
      fun w hw => if_pos hw
    rw [beq_iff_eq]
    exact (locate_inj hcount (hlocate _ hmem') (hlocate _ hmem)).1
  rw [wordRecords, h.records, itemsOf_records, bucketRecords, List.filter_map, List.filter_filter]
  have hfilter : tokens.filter (fun t =>
      ((fun r : OccRecord => r.wordId == UInt32.ofNat ((vocabulary tokens).idxOf word)) ∘
        recordOf (vocabulary tokens)) t && tokenBucket t == (wordBucket word).toNat) =
      tokens.filter fun t => lowerBytes t.word == word := by
    refine List.filter_congr fun t ht => ?_
    rw [Bool.eq_iff_iff, Bool.and_eq_true, beq_iff_eq, beq_iff_eq]
    constructor
    · rintro ⟨hid, -⟩
      exact (hsame t ht).mp hid
    · intro heq
      exact ⟨(hsame t ht).mpr heq, by rw [tokenBucket, heq]⟩
  rw [hfilter]
  refine List.map_congr_left fun t ht => ?_
  have heq := beq_iff_eq.mp (List.mem_filter.mp ht).2
  rw [recordOf, heq]

section Order

variable {lines : List Bytes} {input : Bytes}

lemma mem_numbered {line : Bytes × UInt32} :
    line ∈ numbered lines ↔ ∃ i, lines[i]? = some line.1 ∧ line.2 = UInt32.ofNat (i + 1) := by
  rw [List.mem_iff_getElem?]
  refine exists_congr fun i => ?_
  rw [numbered, List.getElem?_mapIdx, Option.map_eq_some_iff]
  constructor
  · rintro ⟨text, htext, rfl⟩
    exact ⟨htext, rfl⟩
  · rintro ⟨htext, hno⟩
    exact ⟨line.1, htext, Prod.ext rfl hno.symm⟩

lemma mem_textTokens :
    t ∈ textTokens input ↔ ∃ i line, (cutLines input)[i]? = some line ∧
      t.lineNo = UInt32.ofNat (i + 1) ∧ IsWordAt line t.start t.word := by
  simp only [textTokens, tokensOf, List.mem_flatMap, List.mem_map, mem_numbered]
  constructor
  · rintro ⟨⟨line, no⟩, ⟨i, hline, hno⟩, p, hp, rfl⟩
    exact ⟨i, line, hline, hno, mem_wordsFrom.mp hp⟩
  · rintro ⟨i, line, hline, hno, hword⟩
    obtain ⟨lineNo, start, word⟩ := t
    exact ⟨(line, lineNo), ⟨i, hline, hno⟩, (start, word), mem_wordsFrom.mpr hword, rfl⟩

def Token.place (t : Token) : ℕ × ℕ := (t.lineNo.toNat, t.start)

def PlaceLT (a b : ℕ × ℕ) : Prop := a.1 < b.1 ∨ a.1 = b.1 ∧ a.2 < b.2

lemma numbered_sorted (hcount : lines.length < 2 ^ 32) :
    ((numbered lines).map fun line => line.2.toNat).Pairwise (· < ·) := by
  rw [List.pairwise_iff_getElem]
  intro i j hi hj hlt
  simp only [numbered, List.length_map, List.length_mapIdx] at hi hj
  have hno : ∀ k < lines.length, (UInt32.ofNat (k + 1)).toNat = k + 1 := by
    intro k hk
    rw [UInt32.toNat_ofNat', Nat.mod_eq_of_lt (by omega)]
  simp only [numbered, List.getElem_map, List.getElem_mapIdx]
  rw [hno i hi, hno j hj]
  omega

lemma textTokens_sorted (hcount : (cutLines input).length < 2 ^ 32) :
    ((textTokens input).map Token.place).Pairwise PlaceLT := by
  rw [List.pairwise_map, textTokens, tokensOf, List.pairwise_flatMap]
  have hlines := numbered_sorted hcount
  rw [List.pairwise_map] at hlines
  constructor
  · intro line _
    have hwords := (wordsFrom_sorted 0 line.1).1
    rw [List.pairwise_map] at hwords ⊢
    exact hwords.imp fun hlt => Or.inr ⟨rfl, hlt⟩
  · refine hlines.imp fun hlt t ht t' ht' => ?_
    obtain ⟨p, -, rfl⟩ := List.mem_map.mp ht
    obtain ⟨p', -, rfl⟩ := List.mem_map.mp ht'
    exact Or.inl hlt

end Order

end SystemsLab.Search
