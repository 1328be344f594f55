import SystemsLab.Search.Postings

namespace SystemsLab.Search

open CLib

structure Occurrence where
  line : ℕ
  start : ℕ
  word : Bytes

def lineOccurrences (i : ℕ) (line : Bytes) : List Occurrence :=
  (wordsFrom 0 line).map fun p => ⟨i + 1, p.1, p.2⟩

def occurrences (input : Bytes) : List Occurrence :=
  ((cutLines input).mapIdx lineOccurrences).flatten

structure Posting where
  occurrence : Occurrence
  bucket : ℕ
  record : OccRecord

def Names (lexicon : Lexicon) (word : Bytes) (wordId : UInt32) (bucket : ℕ) : Prop :=
  ∃ entry ∈ lexicon.entries, entry.id = wordId ∧ entry.bucket.toNat = bucket ∧
    caseEqualBytes entry.text word word.length = true

def Posting.Exact (p : Posting) : Prop :=
  p.record.lineNo.toNat = p.occurrence.line ∧ p.record.startIdx.toNat = p.occurrence.start

def postingsIn (bucket : ℕ) (postings : List Posting) : Bytes :=
  (postings.filter (·.bucket == bucket)).flatMap fun p => p.record.bytes

structure Posts (index : Index) (input : Bytes) (postings : List Posting) : Prop where
  occurrences : postings.map Posting.occurrence = occurrences input
  named : ∀ p ∈ postings, Names index.lexicon p.occurrence.word p.record.wordId p.bucket
  files : ∀ bucket, index.occFiles bucket = postingsIn bucket postings

def AssignsExactly (input : Bytes) : Prop :=
  ∃ postings, Posts (indexBuild input) input postings ∧ ∀ p ∈ postings, p.Exact

variable {input : Bytes} {o : Occurrence}

lemma mem_lineOccurrences {i : ℕ} {line : Bytes} :
    o ∈ lineOccurrences i line ↔ o.line = i + 1 ∧ IsWordAt line o.start o.word := by
  rw [lineOccurrences, List.mem_map]
  constructor
  · rintro ⟨p, hp, rfl⟩
    exact ⟨rfl, mem_wordsFrom.mp hp⟩
  · rintro ⟨hline, hword⟩
    refine ⟨(o.start, o.word), mem_wordsFrom.mpr hword, ?_⟩
    rw [← hline]

lemma mem_occurrences : o ∈ occurrences input ↔
    ∃ i line, (cutLines input)[i]? = some line ∧ o.line = i + 1 ∧ IsWordAt line o.start o.word := by
  simp only [occurrences, List.mem_flatten, List.mem_iff_getElem? (l := List.mapIdx _ _),
    List.getElem?_mapIdx, Option.map_eq_some_iff]
  constructor
  · rintro ⟨words, ⟨i, line, hline, rfl⟩, ho⟩
    exact ⟨i, line, hline, mem_lineOccurrences.mp ho⟩
  · rintro ⟨i, line, hline, ho⟩
    exact ⟨_, ⟨i, line, hline, rfl⟩, mem_lineOccurrences.mpr ho⟩

def Occurrence.token (o : Occurrence) : Token := ⟨UInt32.ofNat o.line, o.start, o.word⟩

lemma tokens_occurrences (input : Bytes) :
    textTokens input = (occurrences input).map Occurrence.token := by
  rw [textTokens, tokensOf, numbered, occurrences, List.map_flatten, List.flatMap]
  congr 1
  apply List.ext_getElem?
  intro i
  simp only [List.getElem?_map, List.getElem?_mapIdx, Option.map_map]
  congr 1
  funext line
  simp [lineOccurrences, Occurrence.token]

def Posting.Narrowed (p : Posting) : Prop :=
  p.record.lineNo = UInt32.ofNat p.occurrence.line ∧
    p.record.startIdx = UInt32.ofNat p.occurrence.start

section Naming

variable {lexicon : Lexicon} {word : Bytes} {wordId : UInt32} {bucket : ℕ}

lemma Names.rehash (h : Names lexicon word wordId bucket) (nextSlots : ℕ) :
    Names (lexiconRehash lexicon nextSlots) word wordId bucket := by
  obtain ⟨entry, hmem, hentry⟩ := h
  obtain ⟨i, hi⟩ := List.mem_iff_getElem?.mp hmem
  obtain ⟨hlen, -, hspec⟩ := lexicon.rehash_spec nextSlots
  have hlt := (List.getElem?_eq_some_iff.mp hi).1
  have hnew := List.getElem?_eq_getElem (hlen ▸ hlt)
  obtain ⟨-, old, hold, heq⟩ := hspec i _ hnew
  rw [hi, Option.some.injEq] at hold
  subst hold
  refine ⟨_, List.mem_of_getElem? hnew, ?_⟩
  rw [heq]
  exact hentry

lemma Names.add (h : Names lexicon word wordId bucket) (data : Bytes) :
    Names (lexiconAdd lexicon data).1 word wordId bucket := by
  obtain ⟨entry, hmem, hentry⟩ := h
  exact ⟨entry, List.mem_append_left _ hmem, hentry⟩

lemma Names.findOrAdd (h : Names lexicon word wordId bucket) (data : Bytes) :
    Names (lexiconFindOrAdd lexicon data).1 word wordId bucket := by
  rw [lexiconFindOrAdd]
  split
  · exact h
  · split_ifs
    · exact (h.rehash _).add data
    · exact h.add data

lemma add_names (lexicon : Lexicon) (word : Bytes) :
    Names (lexiconAdd lexicon word).1 word (lexiconAdd lexicon word).2.1
      (lexiconAdd lexicon word).2.2.toNat := by
  refine ⟨_, List.mem_append_right _ (List.mem_singleton_self _), rfl, rfl, ?_⟩
  rw [caseEqualBytes, beq_iff_eq, List.take_of_length_le (by simp), List.take_length]
  exact lowerBytes_lowerBytes word

lemma lookupFrom_holds {entries : List LexEntry} {hash index : UInt32} {i : ℕ} {entry : LexEntry}
    (h : lookupFrom entries word hash index = some i) (hentry : entries[i]? = some entry) :
    caseEqualBytes entry.text word word.length = true := by
  fun_induction lookupFrom entries word hash index with
  | case1 => cases h
  | case2 => cases h
  | case3 index hne found hfound hholds =>
    cases h
    rw [hfound, Option.some.injEq] at hentry
    rw [LexEntry.holds, Bool.and_eq_true] at hholds
    exact hentry ▸ hholds.2
  | case4 index hne found hfound hholds hlt ih => exact ih h
  | case5 => cases h

lemma findOrAdd_names (lexicon : Lexicon) (word : Bytes) :
    Names (lexiconFindOrAdd lexicon word).1 word (lexiconFindOrAdd lexicon word).2.1
      (lexiconFindOrAdd lexicon word).2.2.toNat := by
  rw [lexiconFindOrAdd]
  split
  · next wordId bucket hfind =>
    simp only [lexiconFindExisting, Option.bind_eq_bind, Option.bind_eq_some_iff] at hfind
    obtain ⟨i, hi, entry, hentry, he⟩ := hfind
    simp only [Option.some.injEq, Prod.mk.injEq] at he
    obtain ⟨rfl, rfl⟩ := he
    exact ⟨entry, List.mem_of_getElem? hentry, rfl, rfl, lookupFrom_holds hi hentry⟩
  · split_ifs
    · exact add_names _ word
    · exact add_names _ word

end Naming

def processTokens (index : Index) (tokens : List Token) : Index :=
  tokens.foldl (fun index t => processWord t.lineNo index (t.start, t.word)) index

lemma Names.processTokens {index : Index} {word : Bytes} {wordId : UInt32} {bucket : ℕ}
    (h : Names index.lexicon word wordId bucket) (tokens : List Token) :
    Names (processTokens index tokens).lexicon word wordId bucket := by
  induction tokens generalizing index with
  | nil => exact h
  | cons t tokens ih => exact ih (h.findOrAdd t.word)

lemma postingsIn_cons (p : Posting) (postings : List Posting) (bucket : ℕ) :
    postingsIn bucket (p :: postings) =
      (if p.bucket = bucket then p.record.bytes else []) ++ postingsIn bucket postings := by
  rw [postingsIn, List.filter_cons]
  split_ifs with h h' h'
  · rfl
  · exact absurd (beq_iff_eq.mp h) h'
  · exact absurd (beq_iff_eq.mpr h') h
  · rfl

lemma processTokens_postings (index : Index) (os : List Occurrence) :
    ∃ postings : List Posting, postings.map Posting.occurrence = os ∧
      (∀ p ∈ postings, p.Narrowed ∧
        Names (processTokens index (os.map Occurrence.token)).lexicon p.occurrence.word
          p.record.wordId p.bucket) ∧
      ∀ bucket, (processTokens index (os.map Occurrence.token)).occFiles bucket =
        index.occFiles bucket ++ postingsIn bucket postings := by
  induction os generalizing index with
  | nil => exact ⟨[], rfl, fun p hp => absurd hp List.not_mem_nil, fun _ => (List.append_nil _).symm⟩
  | cons o os ih =>
    obtain ⟨postings, hos, hnarrowed, hfiles⟩ :=
      ih (processWord (UInt32.ofNat o.line) index (o.start, o.word))
    refine ⟨⟨o, (lexiconFindOrAdd index.lexicon o.word).2.2.toNat,
        ⟨(lexiconFindOrAdd index.lexicon o.word).2.1, UInt32.ofNat o.line, UInt32.ofNat o.start⟩⟩ ::
        postings, by rw [List.map_cons, hos], ?_, fun b => ?_⟩
    · intro p hp
      rcases List.mem_cons.mp hp with rfl | hp
      · have hnames : Names (processWord (UInt32.ofNat o.line) index (o.start, o.word)).lexicon o.word
            _ _ := findOrAdd_names index.lexicon o.word
        exact ⟨⟨rfl, rfl⟩, hnames.processTokens (os.map Occurrence.token)⟩
      · exact hnarrowed p hp
    · rw [postingsIn_cons, ← List.append_assoc]
      refine (hfiles b).trans (congrArg (· ++ _) ?_)
      simp only [processWord]
      split_ifs with hb
      · subst hb
        rw [Function.update_self]
      · rw [Function.update_of_ne (Ne.symm hb), List.append_nil]

lemma indexBuild_postings (input : Bytes) :
    ∃ postings, Posts (indexBuild input) input postings ∧ ∀ p ∈ postings, p.Narrowed := by
  obtain ⟨postings, hos, hspec, hfiles⟩ :=
    processTokens_postings (indexInit input) (occurrences input)
  rw [← tokens_occurrences, textTokens, processTokens, ← processLines_eq, ← map_fst_linesOf]
    at hspec hfiles
  rw [indexBuild_eq]
  exact ⟨postings, ⟨hos, fun p hp => (hspec p hp).2, hfiles⟩, fun p hp => (hspec p hp).1⟩

theorem assignsExactly_iff (input : Bytes) :
    AssignsExactly input ↔ ∀ o ∈ occurrences input, o.line < 2 ^ 32 ∧ o.start < 2 ^ 32 := by
  constructor
  · rintro ⟨postings, hposts, hexact⟩ o ho
    rw [← hposts.occurrences] at ho
    obtain ⟨p, hp, rfl⟩ := List.mem_map.mp ho
    obtain ⟨hline, hstart⟩ := hexact p hp
    rw [← hline, ← hstart]
    exact ⟨p.record.lineNo.toNat_lt, p.record.startIdx.toNat_lt⟩
  · intro hsmall
    obtain ⟨postings, hposts, hnarrowed⟩ := indexBuild_postings input
    refine ⟨postings, hposts, fun p hp => ?_⟩
    have ho : p.occurrence ∈ occurrences input :=
      hposts.occurrences ▸ List.mem_map_of_mem hp
    obtain ⟨hline, hstart⟩ := hsmall _ ho
    obtain ⟨hlineNo, hstartIdx⟩ := hnarrowed p hp
    rw [Posting.Exact, hlineNo, hstartIdx, UInt32.toNat_ofNat', UInt32.toNat_ofNat',
      Nat.mod_eq_of_lt hline, Nat.mod_eq_of_lt hstart]
    exact ⟨rfl, rfl⟩

lemma occurrence_behind_blanks (n : ℕ) :
    ⟨1, n, [97]⟩ ∈ occurrences (List.replicate n 32 ++ [97]) := by
  have hblank : ∀ c ∈ List.replicate n (32 : UInt8), c = 32 := fun c => List.eq_of_mem_replicate
  have hline : cutLines (List.replicate n 32 ++ [97]) = [List.replicate n 32 ++ [97]] := by
    rw [cutLines_end, if_neg (by simp)]
    rw [List.dropWhile_eq_nil_iff]
    intro c hc
    rcases List.mem_append.mp hc with hc | hc
    · rw [hblank c hc]
      rfl
    · rw [List.mem_singleton.mp hc]
      rfl
  have hgap : (List.replicate n (32 : UInt8) ++ [97]).dropWhile isWordSep = [97] := by
    rw [List.dropWhile_append_of_pos]
    · rfl
    · intro c hc
      rw [hblank c hc]
      rfl
  refine mem_occurrences.mpr ⟨0, _, by rw [hline]; rfl, rfl, mem_wordsFrom.mp ?_⟩
  rw [wordsFrom_cons hgap]
  simp [isWordSep]

/-- A word behind 4 GiB of blanks gets offset 0. -/
theorem long_line_wraps : ¬AssignsExactly (List.replicate (2 ^ 32) 32 ++ [97]) := by
  rintro ⟨postings, hposts, hexact⟩
  have ho := occurrence_behind_blanks (2 ^ 32)
  rw [← hposts.occurrences] at ho
  obtain ⟨p, hp, heq⟩ := List.mem_map.mp ho
  have hstart := (hexact p hp).2
  rw [heq] at hstart
  exact absurd hstart p.record.startIdx.toNat_lt.ne

end SystemsLab.Search
