import SystemsLab.Search.LineSets

namespace SystemsLab.Search

open CLib Effects Streams

def queryLimit : ℕ := 4096

def wordSet (line : Bytes) : Set Bytes :=
  {word | ∃ start token, IsWordAt line start token ∧ lowerBytes token = word}

def ContainsAll (input query : Bytes) (k : ℕ) : Prop :=
  ∃ line, lineAt input k = some line ∧ wordSet query ⊆ wordSet line

structure IsMulti (query : Bytes) : Prop where
  no_quote : 34 ∉ query
  no_star : 42 ∉ query
  length_le : query.length ≤ queryLimit
  two_words : ∃ i j u v, i ≠ j ∧ IsWordAt query i u ∧ IsWordAt query j v

section Collect

variable {lexicon : Lexicon} {starts : List (ℕ × Bytes)} {words l : List (UInt32 × UInt32)}

/-- The body of the loop of `collect_query_words`. -/
def collectWord (lexicon : Lexicon) (words : List (UInt32 × UInt32)) (start : ℕ × Bytes) :
    Option (List (UInt32 × UInt32)) := do
  let word ← lexiconFindExisting lexicon start.2
  if words.any (fun w => w.1 == word.1) then some words else some (words ++ [word])

lemma collectWord_eq_some {start : ℕ × Bytes} (h : collectWord lexicon words start = some l) :
    ∃ word, lexiconFindExisting lexicon start.2 = some word ∧
      ((l = words ∧ ∃ w ∈ words, w.1 = word.1) ∨ l = words ++ [word]) := by
  rw [collectWord, Option.bind_eq_bind, Option.bind_eq_some_iff] at h
  obtain ⟨word, hfind, h⟩ := h
  refine ⟨word, hfind, ?_⟩
  split_ifs at h with hany
  · rw [List.any_eq_true] at hany
    obtain ⟨w, hw, hid⟩ := hany
    exact Or.inl ⟨(Option.some.inj h).symm, w, hw, beq_iff_eq.mp hid⟩
  · exact Or.inr (Option.some.inj h).symm

lemma mem_collect (h : starts.foldlM (collectWord lexicon) words = some l)
    (hid : ∀ p ∈ starts, ∀ word, lexiconFindExisting lexicon p.2 = some word → ∀ w,
      w ∈ words ∨ (∃ q ∈ starts, lexiconFindExisting lexicon q.2 = some w) →
        w.1 = word.1 → w = word) :
    ∀ w, w ∈ l ↔ w ∈ words ∨ ∃ p ∈ starts, lexiconFindExisting lexicon p.2 = some w := by
  induction starts generalizing words with
  | nil =>
    obtain rfl := Option.some.inj h
    intro w
    simp
  | cons p starts ih =>
    rw [List.foldlM_cons, Option.bind_eq_bind, Option.bind_eq_some_iff] at h
    obtain ⟨next, hnext, h⟩ := h
    obtain ⟨word, hfind, hcases⟩ := collectWord_eq_some hnext
    have hmem : ∀ w, w ∈ next ↔ w ∈ words ∨ w = word := by
      rcases hcases with ⟨rfl, w, hw, heq⟩ | rfl
      · have hword : w = word := hid p List.mem_cons_self word hfind w (Or.inl hw) heq
        intro w'
        constructor
        · exact Or.inl
        · rintro (hw' | rfl)
          · exact hw'
          · exact hword ▸ hw
      · intro w
        rw [List.mem_append, List.mem_singleton]
    have hrest := ih h (fun q hq word' hfind' w hw => hid q (List.mem_cons_of_mem p hq) word' hfind' w (by
      rcases hw with hw | ⟨q', hq', hw⟩
      · rcases (hmem w).mp hw with hw | rfl
        · exact Or.inl hw
        · exact Or.inr ⟨p, List.mem_cons_self, hfind⟩
      · exact Or.inr ⟨q', List.mem_cons_of_mem p hq', hw⟩))
    intro w
    rw [hrest, hmem, or_assoc]
    refine or_congr_right ?_
    constructor
    · rintro (rfl | ⟨q, hq, hw⟩)
      · exact ⟨p, List.mem_cons_self, hfind⟩
      · exact ⟨q, List.mem_cons_of_mem p hq, hw⟩
    · rintro ⟨q, hq, hw⟩
      rcases List.mem_cons.mp hq with rfl | hq
      · rw [hfind] at hw
        exact Or.inl (Option.some.inj hw).symm
      · exact Or.inr ⟨q, hq, hw⟩

lemma collect_eq_none (h : starts.foldlM (collectWord lexicon) words = none) :
    ∃ p ∈ starts, lexiconFindExisting lexicon p.2 = none := by
  induction starts generalizing words with
  | nil => cases h
  | cons p starts ih =>
    cases hfind : lexiconFindExisting lexicon p.2 with
    | none => exact ⟨p, List.mem_cons_self, hfind⟩
    | some word =>
      rw [List.foldlM_cons, Option.bind_eq_bind] at h
      have hnext : ∃ next, collectWord lexicon words p = some next := by
        rw [collectWord, hfind, Option.bind_eq_bind, Option.bind_some]
        split_ifs
        · exact ⟨_, rfl⟩
        · exact ⟨_, rfl⟩
      obtain ⟨next, hnext⟩ := hnext
      rw [hnext, Option.bind_some] at h
      obtain ⟨q, hq, hnone⟩ := ih h
      exact ⟨q, List.mem_cons_of_mem p hq, hnone⟩

lemma exists_of_collect (h : starts.foldlM (collectWord lexicon) words = some l) :
    ∀ p ∈ starts, ∃ word, lexiconFindExisting lexicon p.2 = some word := by
  induction starts generalizing words with
  | nil => exact nofun
  | cons p starts ih =>
    rw [List.foldlM_cons, Option.bind_eq_bind, Option.bind_eq_some_iff] at h
    obtain ⟨next, hnext, h⟩ := h
    obtain ⟨word, hfind, -⟩ := collectWord_eq_some hnext
    rintro q hq
    rcases List.mem_cons.mp hq with rfl | hq
    · exact ⟨word, hfind⟩
    · exact ih h q hq

lemma length_collect_le (h : starts.foldlM (collectWord lexicon) words = some l) :
    l.length ≤ words.length + starts.length := by
  induction starts generalizing words with
  | nil =>
    obtain rfl := Option.some.inj h
    exact le_rfl
  | cons p starts ih =>
    rw [List.foldlM_cons, Option.bind_eq_bind, Option.bind_eq_some_iff] at h
    obtain ⟨next, hnext, h⟩ := h
    have hle := ih h
    obtain ⟨word, -, ⟨rfl, -⟩ | rfl⟩ := collectWord_eq_some hnext
    · rw [List.length_cons]
      omega
    · rw [List.length_append, List.length_singleton] at hle
      rw [List.length_cons]
      omega

end Collect

lemma length_wordsFrom_half (n : ℕ) (s : Bytes) :
    2 * (wordsFrom n s).length ≤ (s.dropWhile isWordSep).length + 1 := by
  fun_induction wordsFrom n s with
  | case1 n s h => simp
  | case2 n s c t h start word ih =>
    have hc : isWordSep c = false := isWordSep_of_dropWhile h
    have hall := congrArg List.length (List.takeWhile_append_dropWhile (p := (!isWordSep ·)) (l := c :: t))
    have hword : 0 < ((c :: t).takeWhile (!isWordSep ·)).length := by
      rw [List.takeWhile_cons_of_pos (by rw [hc]; rfl)]
      exact Nat.succ_pos _
    rw [List.length_append] at hall
    rw [h]
    change 2 * ((wordsFrom _ _).length + 1) ≤ _
    cases hrest : (c :: t).dropWhile (!isWordSep ·) with
    | nil =>
      rw [hrest] at ih
      simp at ih ⊢
      omega
    | cons d rest =>
      have hd : isWordSep d = true := head_dropWhile_sep (s := c :: t) (by rw [hrest]; rfl)
      rw [hrest] at ih hall
      rw [List.dropWhile_cons_of_pos hd] at ih
      have hle := List.length_dropWhile_le isWordSep rest
      rw [List.length_cons] at hall
      omega

variable {input query data : Bytes} {w w' : UInt32 × UInt32} {words : List (UInt32 × UInt32)} {k : ℕ}
  {line : Bytes}

def LineHas (input data : Bytes) (k : ℕ) : Prop :=
  ∃ line, lineAt input k = some line ∧ lowerBytes data ∈ wordSet line

lemma lineHas_iff : LineHas input data k ↔ ∃ start, WordAt input data (k, start) := by
  constructor
  · rintro ⟨line, hline, start, token, hword, hcase⟩
    exact ⟨start, line, hline, token, hword, hcase⟩
  · rintro ⟨start, line, hline, token, hword, hcase⟩
    exact ⟨line, hline, start, token, hword, hcase⟩

lemma containsAll_iff (hne : wordsFrom 0 query ≠ []) :
    ContainsAll input query k ↔ ∀ p ∈ wordsFrom 0 query, LineHas input p.2 k := by
  constructor
  · rintro ⟨line, hline, hsub⟩ ⟨start, token⟩ hp
    exact ⟨line, hline, hsub ⟨start, token, mem_wordsFrom.mp hp, rfl⟩⟩
  · intro hall
    obtain ⟨p, hp⟩ := List.exists_mem_of_ne_nil _ hne
    obtain ⟨line, hline, -⟩ := hall p hp
    refine ⟨line, hline, ?_⟩
    rintro _ ⟨start, token, hword, rfl⟩
    obtain ⟨line', hline', hmem⟩ := hall (start, token) (mem_wordsFrom.mpr hword)
    rw [hline] at hline'
    obtain rfl := Option.some.inj hline'
    exact hmem

lemma Known.eq_of_id {index : Index} (h : Known index w) (h' : Known index w') (hid : w.1 = w'.1) :
    w = w' := by
  obtain ⟨entry, hentry, -, hbucket⟩ := h
  obtain ⟨entry', hentry', -, hbucket'⟩ := h'
  rw [hid, hentry'] at hentry
  obtain rfl := Option.some.inj hentry
  exact Prod.ext hid (hbucket.symm.trans hbucket')

section Postings

variable (h : Spellable input)
include h

lemma find_eq_none (hfind : lexiconFindExisting (indexBuild input).lexicon data = none) :
    ¬LineHas input data k := by
  have hcount := h.vocabulary_length
  rcases h.posts.findExisting (by omega) data with ⟨-, hnil⟩ | ⟨w, hsome, -⟩
  · rw [lineHas_iff]
    rintro ⟨start, hat⟩
    have hmem := (mem_places h.lines).mpr hat
    rw [hnil] at hmem
    cases hmem
  · rw [hfind] at hsome
    cases hsome

lemma find_records (hfind : lexiconFindExisting (indexBuild input).lexicon data = some w) :
    wordRecords (indexBuild input) w.1 w.2 =
      (wordTokens (textTokens input) data).map (tokenRecord w.1) := by
  have hcount := h.vocabulary_length
  rcases h.posts.findExisting (by omega) data with ⟨hnone, -⟩ | ⟨w', hsome, hrecords⟩
  · rw [hfind] at hnone
    cases hnone
  · rw [hfind] at hsome
    obtain rfl := Option.some.inj hsome
    exact hrecords

lemma mem_wordLines (hfind : lexiconFindExisting (indexBuild input).lexicon data = some w) :
    k ∈ wordLines (indexBuild input) w ↔ LineHas input data k := by
  rw [wordLines, mem_groupKeys, find_records h hfind, lineHas_iff]
  simp only [← mem_places h.lines, List.mem_map]
  constructor
  · rintro ⟨_, ⟨t, ht, rfl⟩, rfl⟩
    exact ⟨t.start, t, ht, rfl⟩
  · rintro ⟨start, t, ht, hplace⟩
    exact ⟨tokenRecord w.1 t, ⟨t, ht, rfl⟩, congrArg Prod.fst hplace⟩

lemma wordRecords_sorted (hfind : lexiconFindExisting (indexBuild input).lexicon data = some w) :
    Sorted OccRecord.line (wordRecords (indexBuild input) w.1 w.2) := by
  have hplaces := places_sorted h.lines data
  rw [List.pairwise_map] at hplaces
  rw [find_records h hfind, Sorted, List.pairwise_map]
  refine hplaces.imp ?_
  rintro t t' (hlt | ⟨heq, -⟩)
  · exact hlt.le
  · exact heq.le

lemma length_wordLines (hfind : lexiconFindExisting (indexBuild input).lexicon data = some w) :
    (wordLines (indexBuild input) w).length < 2 ^ 32 := by
  have hnodup := (groupKeys_sorted (wordRecords_sorted h hfind)).imp fun hlt => Nat.ne_of_lt hlt
  have hsub : wordLines (indexBuild input) w ⊆ (List.range (cutLines input).length).map (· + 1) := by
    intro k hk
    obtain ⟨line, hline, -⟩ := (mem_wordLines h hfind).mp hk
    obtain ⟨i, rfl, hline⟩ := exists_lineAt hline
    have hi := (List.getElem?_eq_some_iff.mp hline).1
    exact List.mem_map.mpr ⟨i, List.mem_range.mpr hi, rfl⟩
  have hle := (List.subperm_of_subset hnodup hsub).length_le
  rw [List.length_map, List.length_range] at hle
  exact hle.trans_lt h.lines

end Postings

lemma collected_ids {starts : List (ℕ × Bytes)} : ∀ p ∈ starts, ∀ word,
    lexiconFindExisting (indexBuild input).lexicon p.2 = some word → ∀ w,
      w ∈ ([] : List (UInt32 × UInt32)) ∨
        (∃ q ∈ starts, lexiconFindExisting (indexBuild input).lexicon q.2 = some w) →
      w.1 = word.1 → w = word := by
  rintro p - word hfind w (hw | ⟨q, -, hw⟩) hid
  · cases hw
  · have hsound := indexBuild_sound input
    exact (lexiconFindExisting_known hsound hw).eq_of_id (lexiconFindExisting_known hsound hfind) hid

lemma collected_spec (h : Spellable input)
    (hwords : collectQueryWords (indexBuild input).lexicon query = some words)
    (hne : wordsFrom 0 query ≠ []) : words ≠ [] ∧
    InLines (indexBuild input) words ∧
      ∀ k, (∀ w ∈ words, k ∈ wordLines (indexBuild input) w) ↔
        ∀ p ∈ wordsFrom 0 query, LineHas input p.2 k := by
  have hcollect : (wordsFrom 0 query).foldlM (collectWord (indexBuild input).lexicon) [] = some words :=
    hwords
  have hmem := mem_collect hcollect collected_ids
  have hfound : ∀ w, w ∈ words ↔
      ∃ p ∈ wordsFrom 0 query, lexiconFindExisting (indexBuild input).lexicon p.2 = some w := by
    intro w
    rw [hmem, or_iff_right (List.not_mem_nil)]
  refine ⟨?_, ⟨fun w hw => ?_, fun w hw => ?_, fun w hw => ?_⟩,
    fun k => ⟨fun hall p hp => ?_, fun hall w hw => ?_⟩⟩
  · obtain ⟨p, hp⟩ := List.exists_mem_of_ne_nil _ hne
    obtain ⟨w, hfind⟩ := exists_of_collect hcollect p hp
    exact List.ne_nil_of_mem ((hfound w).mpr ⟨p, hp, hfind⟩)
  · obtain ⟨p, -, hfind⟩ := (hfound w).mp hw
    exact lexiconFindExisting_known (indexBuild_sound input) hfind
  · obtain ⟨p, -, hfind⟩ := (hfound w).mp hw
    exact wordRecords_sorted h hfind
  · obtain ⟨p, -, hfind⟩ := (hfound w).mp hw
    exact length_wordLines h hfind
  · obtain ⟨w, hfind⟩ := exists_of_collect hcollect p hp
    exact (mem_wordLines h hfind).mp (hall w ((hfound w).mpr ⟨p, hp, hfind⟩))
  · obtain ⟨p, hp, hfind⟩ := (hfound w).mp hw
    exact (mem_wordLines h hfind).mpr (hall p hp)

lemma IsMulti.two_le (h : IsMulti query) : ∃ p q rest, wordsFrom 0 query = p :: q :: rest := by
  obtain ⟨i, j, u, v, hij, hu, hv⟩ := h.two_words
  rw [← mem_wordsFrom] at hu hv
  match hwords : wordsFrom 0 query with
  | [] =>
    rw [hwords] at hu
    cases hu
  | [p] =>
    rw [hwords, List.mem_singleton] at hu hv
    exact (hij (congrArg Prod.fst (hu.trans hv.symm))).elim
  | p :: q :: rest => exact ⟨p, q, rest, rfl⟩

lemma IsMulti.ne_nil (h : IsMulti query) : wordsFrom 0 query ≠ [] := by
  obtain ⟨p, q, rest, hwords⟩ := h.two_le
  rw [hwords]
  exact List.cons_ne_nil _ _

lemma IsMulti.handleQuery_ends {s : Session} {Q E : Unit → Session → Prop} (h : IsMulti query)
    (hends : Ends (handleMulti query) Q E (queryScratchReset s)) : Ends (handleQuery query) Q E s := by
  obtain ⟨p, q, rest, hwords⟩ := h.two_le
  have hquote : query.contains 34 = false := by simpa using h.no_quote
  have hstar : query.contains 42 = false := by simpa using h.no_star
  rw [handleQuery, hquote, hstar, hwords, ends_bind, ends_modify]
  exact hends

lemma IsMulti.length_collect (h : IsMulti query) {lexicon : Lexicon}
    (hwords : collectQueryWords lexicon query = some words) : words.length ≤ queryLimit / 2 + 1 := by
  have hle := length_collect_le hwords
  have hhalf := length_wordsFrom_half 0 query
  have hdrop := List.length_dropWhile_le isWordSep query
  have hlimit := h.length_le
  rw [List.length_nil] at hle
  omega

lemma handleMulti_none {s : Session} (hnone : collectQueryWords s.index.lexicon query = none) :
    Ends (handleMulti query) (fun _ s' => s'.out = s.out ++ [newline]) (fun _ _ => False) s := by
  have hquery : queryWords query s = .ok none s := by
    rw [← hnone]
    rfl
  rw [handleMulti, ends_bind]
  refine ends_of_ok hquery ?_
  rw [ends_output, emitBlankLine, ends_emit]

lemma multi_answer (h : Spellable input) (hquery : IsMulti query) :
    ∃ lines : List ℕ, lines.Pairwise (· < ·) ∧ (∀ k, k ∈ lines ↔ ContainsAll input query k) ∧
      ∀ history, (answer query (afterQueries input history)).1 =
        (true, lines.flatMap lineNoRef ++ [newline]) := by
  cases hcollect : collectQueryWords (indexBuild input).lexicon query with
  | none =>
    obtain ⟨p, hp, hnone⟩ := collect_eq_none hcollect
    refine ⟨[], List.Pairwise.nil, fun k => ?_, fun history => answer_eq fun s hs hindex hout => ?_⟩
    · rw [containsAll_iff hquery.ne_nil]
      refine iff_of_false List.not_mem_nil fun hall => ?_
      exact find_eq_none h hnone (hall p hp)
    · refine hquery.handleQuery_ends ((handleMulti_none ?_).imp fun _ s' hs' => ?_)
      · rw [← hcollect, ← hindex]
        rfl
      · rw [hs']
        change s.out ++ _ = _
        rw [hout]
        rfl
  | some words =>
    obtain ⟨hne, hlines, hmem⟩ := collected_spec h hcollect hquery.ne_nil
    obtain ⟨word, rest, rfl⟩ := List.exists_cons_of_ne_nil hne
    have hshared := sharedLines_sharedBy hlines
    refine ⟨_, hshared.1, fun k => ?_, fun history => answer_eq fun s hs hindex hout => ?_⟩
    · rw [hshared.2, hmem, containsAll_iff hquery.ne_nil]
    · have hclear : CacheSound (queryScratchReset s) := ⟨hs.index, hs.path_lt, hs.holds⟩
      have hindex' : (queryScratchReset s).index = indexBuild input := hindex
      rw [← hindex'] at hcollect hlines hshared
      refine hquery.handleQuery_ends ((handleMulti_ends hclear hcollect hne hlines hshared).imp ?_)
      intro _ s' hs'
      rw [hs']
      change s.out ++ _ ++ _ = _
      rw [hout, List.nil_append, hindex']

theorem multi_query_lines (h : Spellable input) (hquery : IsMulti query) :
    ∃ lines : List ℕ, lines.Pairwise (· < ·) ∧ (∀ k, k ∈ lines ↔ ContainsAll input query k) ∧
      (∀ history, (answer query (afterQueries input history)).1 =
        (true, lines.flatMap lineNoRef ++ [newline])) ∧
      (∀ words, collectQueryWords (indexBuild input).lexicon query = some words →
        words.length ≤ queryLimit / 2 + 1 ∧
          ∀ order s, order.Perm words → CacheSound s → s.index = indexBuild input →
            Ends (multiSources order)
              (fun _ s' => s'.out = s.out ++ lines.flatMap lineNoRef ++ [newline])
              (fun _ _ => False) s) ∧
      ∀ query', IsMulti query' → wordSet query' = wordSet query → ∀ history,
        (answer query' (afterQueries input history)).1 =
          (true, lines.flatMap lineNoRef ++ [newline]) := by
  obtain ⟨lines, hsorted, hmem, hanswer⟩ := multi_answer h hquery
  refine ⟨lines, hsorted, hmem, hanswer, fun words hwords => ⟨hquery.length_collect hwords, ?_⟩, ?_⟩
  · intro order s hperm hs hindex
    obtain ⟨hne, hlines, hshared⟩ := collected_spec h hwords hquery.ne_nil
    have hperm' := hlines.perm hperm
    have hne' : order ≠ [] := fun hnil => hne (hnil ▸ hperm).nil_eq.symm
    rw [← hindex] at hperm' hshared
    refine multiSources_ends hs hperm' hne' ⟨hsorted, fun k => ?_⟩
    rw [hmem, containsAll_iff hquery.ne_nil, ← hshared]
    exact forall_congr' fun w => imp_congr_left hperm.mem_iff.symm
  · intro query' hquery' hset history
    obtain ⟨lines', hsorted', hmem', hanswer'⟩ := multi_answer h hquery'
    have heq : lines' = lines := by
      refine hsorted'.eq_of_mem_iff hsorted fun k => ?_
      rw [hmem, hmem', ContainsAll, ContainsAll, hset]
    rw [hanswer', heq]

theorem multi_query_lines_swapped :
    ∃ lines : List ℕ, lines.Pairwise (· < ·) ∧
      (∀ k, k ∈ lines ↔ ContainsAll (ascii "ab cd\n cd ef\nef aB cD") (ascii "CD ab") k) ∧
      (answer (ascii "CD ab") (afterQueries (ascii "ab cd\n cd ef\nef aB cD") [])).1 =
        (true, lines.flatMap lineNoRef ++ [newline]) := by
  have hfits : Indexable (ascii "ab cd\n cd ef\nef aB cD") := indexable_of_length (by decide)
  have hquery : IsMulti (ascii "CD ab") :=
    ⟨by decide, by decide, by decide, 0, 3, ascii "CD", ascii "ab", by decide,
      ⟨by decide, no_sep_of_any rfl, by decide, Or.inl rfl, Or.inr ⟨32, rfl, rfl⟩⟩,
      ⟨by decide, no_sep_of_any rfl, by decide, Or.inr ⟨32, rfl, rfl⟩, Or.inl rfl⟩⟩
  obtain ⟨lines, hsorted, hmem, hanswer, -⟩ := multi_query_lines hfits.spellable hquery
  exact ⟨lines, hsorted, hmem, hanswer []⟩

section LongWord

def longWord (n : ℕ) : Bytes := 97 :: List.replicate n 0

lemma foldl_zeros (k : ℕ) (hash : UInt32) :
    (List.replicate (2 ^ k) (0 : UInt8)).foldl
        (fun hash c => (hash ^^^ (asciiLower c).toUInt32) * 16777619) hash =
      hash * (fun x : UInt32 => x * x)^[k] 16777619 := by
  induction k generalizing hash with
  | zero =>
    have hzero : (asciiLower 0).toUInt32 = 0 := rfl
    change (hash ^^^ (asciiLower 0).toUInt32) * 16777619 = _
    rw [hzero, UInt32.xor_zero]
    rfl
  | succ k ih =>
    rw [Nat.pow_succ, Nat.mul_two, List.replicate_add, List.foldl_append, ih, ih,
      Function.iterate_succ_apply', UInt32.mul_assoc]

lemma hash_longWord : hashLowerBytes (longWord (2 ^ 32)) = hashLowerBytes wordA := by
  have hone : (fun x : UInt32 => x * x)^[32] 16777619 = 1 := by decide +kernel
  rw [hashLowerBytes, longWord, List.foldl_cons, foldl_zeros, hone, UInt32.mul_one]
  rfl

variable {n : ℕ}

lemma longWord_no_sep : ∀ c ∈ longWord n, isWordSep c = false := by
  intro c hc
  rcases List.mem_cons.mp hc with rfl | hc
  · rfl
  · rw [List.eq_of_mem_replicate hc]
    rfl

lemma longWord_no_newline : (longWord n).dropWhile (· ≠ newline) = [] := by
  rw [List.dropWhile_eq_nil_iff]
  intro c hc
  rcases List.mem_cons.mp hc with rfl | hc
  · rfl
  · rw [List.eq_of_mem_replicate hc]
    rfl

lemma wordsFrom_longWord : wordsFrom 0 (longWord n) = [(0, longWord n)] := by
  have h : wordsFrom 0 ([] ++ (longWord n ++ [])) = [(0, longWord n)] :=
    wordsFrom_single nofun nofun (List.cons_ne_nil 97 _) longWord_no_sep
  rwa [List.nil_append, List.append_nil] at h

lemma cutLines_longWord : cutLines (longWord n) = [longWord n] := by
  have hne : longWord n ≠ [] := List.cons_ne_nil _ _
  rw [cutLines_end longWord_no_newline, if_neg hne]

lemma linesOf_longWord : linesOf (longWord n) = [(longWord n, false)] := by
  have hne : longWord n ≠ [] := List.cons_ne_nil _ _
  rw [linesOf_end longWord_no_newline, if_neg hne]

lemma indexBuild_longWord : (indexBuild (longWord n)).lexicon = (lexiconAdd lexiconInit (longWord n)).1 ∧
    (indexBuild (longWord n)).occFiles = Function.update (fun _ => [])
      (hashLowerBytes (longWord n) % occBuckets).toNat (OccRecord.bytes ⟨0, 1, 0⟩) := by
  have hnone : lexiconFindExisting lexiconInit (longWord n) = none := by
    rw [lexiconFindExisting, lexiconLookup, lookupFrom]
    rfl
  have hadd : lexiconFindOrAdd lexiconInit (longWord n) = lexiconAdd lexiconInit (longWord n) := by
    rw [lexiconFindOrAdd, hnone]
    rfl
  rw [indexBuild, linesOf_longWord, List.foldl_cons, List.foldl_nil, buildLine]
  simp only [processLine, wordsFrom_longWord, List.foldl_cons, List.foldl_nil, processWord, indexInit, hadd]
  exact ⟨trivial, rfl⟩

lemma find_longWord (hlen : UInt32.ofNat (longWord n).length = 1)
    (hhash : hashLowerBytes (longWord n) = hashLowerBytes wordA) :
    lexiconFindExisting (indexBuild (longWord n)).lexicon wordA = some (0, bucketA) := by
  rw [indexBuild_longWord.1]
  have hs : (lexiconAdd lexiconInit (longWord n)).1.slots ((hashLowerBytes wordA).toNat %
      (lexiconAdd lexiconInit (longWord n)).1.slotCount) = 1 := by
    simp only [lexiconAdd, hhash]
    exact Function.update_self ..
  rw [lexiconFindExisting, lexiconLookup, hs, lookupFrom, if_neg (by decide)]
  simp only [lexiconAdd, hhash, hlen]
  rfl

lemma records_longWord (hhash : hashLowerBytes (longWord n) = hashLowerBytes wordA) :
    wordRecords (indexBuild (longWord n)) 0 bucketA = [⟨0, 1, 0⟩] := by
  have hfile : (indexBuild (longWord n)).occFiles bucketA.toNat =
      [(⟨0, 1, 0⟩ : OccRecord)].flatMap OccRecord.bytes := by
    rw [indexBuild_longWord.2, hhash]
    exact Function.update_self ..
  rw [wordRecords, hfile, itemsOf_records]
  rfl

lemma isMulti_twice : IsMulti [97, 32, 97] where
  no_quote := by decide
  no_star := by decide
  length_le := by decide
  two_words := by
    have hfirst : (0, wordA) ∈ wordsFrom 0 [97, 32, 97] := wordsFrom_lineA ▸ List.mem_cons_self
    have hsecond : (2, wordA) ∈ wordsFrom 0 [97, 32, 97] :=
      wordsFrom_lineA ▸ List.mem_cons_of_mem _ List.mem_cons_self
    exact ⟨0, 2, wordA, wordA, by decide, mem_wordsFrom.mp hfirst, mem_wordsFrom.mp hsecond⟩

lemma not_containsAll_longWord (hn : 0 < n) (k : ℕ) : ¬ContainsAll (longWord n) [97, 32, 97] k := by
  rintro ⟨line, hline, hsub⟩
  obtain ⟨i, -, hline⟩ := exists_lineAt hline
  rw [cutLines_longWord] at hline
  obtain rfl : line = longWord n := List.mem_singleton.mp (List.mem_of_getElem? hline)
  have hmem : lowerBytes wordA ∈ wordSet (longWord n) := by
    refine hsub ⟨0, wordA, mem_wordsFrom.mp ?_, rfl⟩
    rw [wordsFrom_lineA]
    exact List.mem_cons_self
  obtain ⟨start, token, hword, hcase⟩ := hmem
  rw [← mem_wordsFrom, wordsFrom_longWord, List.mem_singleton] at hword
  obtain ⟨-, rfl⟩ := Prod.mk.inj hword
  have hlen := congrArg List.length hcase
  rw [length_lowerBytes, length_lowerBytes, longWord, List.length_cons, List.length_replicate] at hlen
  change n + 1 = 1 at hlen
  omega

lemma answer_longWord (hlen : UInt32.ofNat (longWord n).length = 1)
    (hhash : hashLowerBytes (longWord n) = hashLowerBytes wordA) :
    (answer [97, 32, 97] (afterQueries (longWord n) [])).1 = (true, lineNoRef 1 ++ [newline]) := by
  have hfind := find_longWord hlen hhash
  have hlines : wordLines (indexBuild (longWord n)) (0, bucketA) = [1] := by
    rw [wordLines, records_longWord hhash]
    simp [groupKeys, dropGroup, OccRecord.line]
  have hcollect : collectQueryWords (indexBuild (longWord n)).lexicon [97, 32, 97] =
      some [(0, bucketA)] := by
    have hfirst : collectWord (indexBuild (longWord n)).lexicon [] (0, wordA) = some [(0, bucketA)] := by
      rw [collectWord, hfind]
      rfl
    have hsecond : collectWord (indexBuild (longWord n)).lexicon [(0, bucketA)] (2, wordA) =
        some [(0, bucketA)] := by
      rw [collectWord, hfind]
      rfl
    change (wordsFrom 0 [97, 32, 97]).foldlM (collectWord _) [] = _
    rw [wordsFrom_lineA, List.foldlM_cons, hfirst, Option.bind_eq_bind, Option.bind_some,
      List.foldlM_cons, hsecond]
    rfl
  have hin : InLines (indexBuild (longWord n)) [(0, bucketA)] := by
    refine ⟨fun w hw => ?_, fun w hw => ?_, fun w hw => ?_⟩
    · rw [List.mem_singleton.mp hw]
      exact lexiconFindExisting_known (indexBuild_sound _) hfind
    · rw [List.mem_singleton.mp hw]
      change Sorted OccRecord.line (wordRecords _ 0 bucketA)
      rw [records_longWord hhash]
      exact List.pairwise_singleton _ _
    · rw [List.mem_singleton.mp hw, hlines, List.length_singleton]
      omega
  have hshared : SharedBy (indexBuild (longWord n)) [(0, bucketA)] [1] := by
    refine ⟨List.pairwise_singleton _ _, fun k => ?_⟩
    simp [hlines]
  refine answer_eq fun s hs hindex hout => ?_
  have hclear : CacheSound (queryScratchReset s) := ⟨hs.index, hs.path_lt, hs.holds⟩
  have hindex' : (queryScratchReset s).index = indexBuild (longWord n) := hindex
  rw [← hindex'] at hcollect hin hshared
  refine isMulti_twice.handleQuery_ends
    ((handleMulti_ends hclear hcollect (List.cons_ne_nil _ _) hin hshared).imp ?_)
  intro _ s' hs'
  rw [hs']
  change s.out ++ _ ++ _ = _
  rw [hout, List.nil_append, List.flatMap_singleton]

lemma multi_fails_longWord (hn : 0 < n) (hlen : UInt32.ofNat (longWord n).length = 1)
    (hhash : hashLowerBytes (longWord n) = hashLowerBytes wordA) :
    ¬∃ lines : List ℕ, (∀ k, k ∈ lines ↔ ContainsAll (longWord n) [97, 32, 97] k) ∧
      (answer [97, 32, 97] (afterQueries (longWord n) [])).1 =
        (true, lines.flatMap lineNoRef ++ [newline]) := by
  rintro ⟨lines, hmem, hanswer⟩
  have hnil : lines = [] := List.eq_nil_iff_forall_not_mem.mpr fun k hk =>
    not_containsAll_longWord hn k ((hmem k).mp hk)
  rw [answer_longWord hlen hhash, hnil] at hanswer
  have hout := List.append_cancel_right (congrArg Prod.snd hanswer)
  have hone : lineNoRef 1 ≠ [] := by simp [lineNoRef, ascii]
  exact hone hout

lemma length_longWord_small : (cutLines (longWord n)).length < 2 ^ 32 ∧
    (textWords (longWord n)).eraseDups.length < 2 ^ 32 - 1 := by
  rw [textWords, cutLines_longWord, List.flatMap_singleton, wordsFrom_longWord]
  have hle := length_eraseDups_le ([(0, longWord n)].map fun p => lowerBytes p.2)
  rw [List.length_map, List.length_singleton] at hle
  constructor
  · rw [List.length_singleton]
    omega
  · omega

/-- The length of a word is kept as a `u32`, so a word of `2 ^ 32 + 1` bytes can be taken for one
of its first letter. -/
theorem multi_query_long_word :
    ¬∀ input query : Bytes, (cutLines input).length < 2 ^ 32 →
      (textWords input).eraseDups.length < 2 ^ 32 - 1 → IsMulti query →
        ∃ lines : List ℕ, lines.Pairwise (· < ·) ∧ (∀ k, k ∈ lines ↔ ContainsAll input query k) ∧
          (answer query (afterQueries input [])).1 = (true, lines.flatMap lineNoRef ++ [newline]) := by
  intro hclaim
  obtain ⟨hlines, hwords⟩ := @length_longWord_small (2 ^ 32)
  obtain ⟨lines, -, hmem, hanswer⟩ := hclaim (longWord (2 ^ 32)) [97, 32, 97] hlines hwords isMulti_twice
  have hlen : UInt32.ofNat (longWord (2 ^ 32)).length = 1 := by
    rw [longWord, List.length_cons, List.length_replicate]
    decide +kernel
  exact multi_fails_longWord (Nat.two_pow_pos 32) hlen hash_longWord ⟨lines, hmem, hanswer⟩

end LongWord

end SystemsLab.Search
