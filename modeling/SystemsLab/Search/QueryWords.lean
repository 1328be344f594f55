import SystemsLab.Search.Containment

namespace SystemsLab.Search

open CLib

def skipFrom (p : UInt8 → Bool) (query : Bytes) (pos : ℕ) : ℕ :=
  pos + ((query.drop pos).takeWhile p).length

structure QueryArrays where
  wordIds : ℕ → UInt32
  buckets : ℕ → UInt32

def queryCapacity : ℕ := queryLimit / 2 + 1

namespace QueryArrays

def write (a : QueryArrays) (i : ℕ) (word : UInt32 × UInt32) : QueryArrays :=
  ⟨Function.update a.wordIds i word.1, Function.update a.buckets i word.2⟩

def words (a : QueryArrays) (count : ℕ) : List (UInt32 × UInt32) :=
  (List.range count).map fun i => (a.wordIds i, a.buckets i)

end QueryArrays

/-- How `collect_query_words` ends: with a write behind the arrays, with 0, or with 1 and a count. -/
inductive Collected
  | overrun
  | unknown
  | words (a : QueryArrays) (count : ℕ)

lemma le_skipFrom (p : UInt8 → Bool) (query : Bytes) (pos : ℕ) : pos ≤ skipFrom p query pos :=
  Nat.le_add_right _ _

lemma drop_skipFrom (p : UInt8 → Bool) (query : Bytes) (pos : ℕ) :
    query.drop (skipFrom p query pos) = (query.drop pos).dropWhile p := by
  have hdrop : ((query.drop pos).takeWhile p ++ (query.drop pos).dropWhile p).drop
      ((query.drop pos).takeWhile p).length = (query.drop pos).dropWhile p := List.drop_left
  rw [List.takeWhile_append_dropWhile, List.drop_drop] at hdrop
  exact hdrop

lemma exists_start {query : Bytes} {pos : ℕ} (h : skipFrom isWordSep query pos < query.length) :
    ∃ c t, (query.drop pos).dropWhile isWordSep = c :: t ∧ isWordSep c = false ∧
      query.drop (skipFrom isWordSep query pos) = c :: t := by
  have hdrop := drop_skipFrom isWordSep query pos
  have hcons := List.drop_eq_getElem_cons h
  rw [hdrop] at hcons
  exact ⟨_, _, hcons, isWordSep_of_dropWhile hcons, hdrop.trans hcons⟩

lemma lt_stop {query : Bytes} {pos : ℕ} (h : skipFrom isWordSep query pos < query.length) :
    pos < skipFrom (!isWordSep ·) query (skipFrom isWordSep query pos) := by
  obtain ⟨c, t, -, hc, hstart⟩ := exists_start h
  have hle := le_skipFrom isWordSep query pos
  rw [skipFrom, hstart, List.takeWhile_cons_of_pos (by rw [hc]; rfl), List.length_cons]
  omega

lemma shorter_stop {query : Bytes} {pos : ℕ} (h : skipFrom isWordSep query pos < query.length) :
    query.length - skipFrom (!isWordSep ·) query (skipFrom isWordSep query pos) <
      query.length - pos := by
  have hlt := lt_stop h
  have hle := le_skipFrom isWordSep query pos
  omega

/-- The loop of `collect_query_words`. -/
def collectFrom (lexicon : Lexicon) (query : Bytes) (pos : ℕ) (a : QueryArrays) (outCount : ℕ) :
    Collected :=
  if pos < query.length then
    let start := skipFrom isWordSep query pos
    if _h : start < query.length then
      let stop := skipFrom (!isWordSep ·) query start
      match lexiconFindExisting lexicon ((query.drop start).take (stop - start)) with
      | none => .unknown
      | some word =>
        if (List.range outCount).any (fun i => a.wordIds i == word.1) then
          collectFrom lexicon query stop a outCount
        else if outCount < queryCapacity then
          collectFrom lexicon query stop (a.write outCount word) (outCount + 1)
        else .overrun
    else .words a outCount
  else .words a outCount
termination_by query.length - pos
decreasing_by all_goals exact shorter_stop _h

def collectQueryWordsInto (lexicon : Lexicon) (query : Bytes) (a : QueryArrays) : Collected :=
  collectFrom lexicon query 0 a 0

section Refines

variable {lexicon : Lexicon} {query : Bytes} {pos outCount : ℕ} {a : QueryArrays}
  {word : UInt32 × UInt32}

lemma any_words (a : QueryArrays) (count : ℕ) (id : UInt32) :
    (a.words count).any (fun w => w.1 == id) = (List.range count).any fun i => a.wordIds i == id := by
  rw [QueryArrays.words, List.any_map]
  rfl

lemma words_write (a : QueryArrays) (count : ℕ) (word : UInt32 × UInt32) :
    (a.write count word).words (count + 1) = a.words count ++ [word] := by
  rw [QueryArrays.words, List.range_succ, List.map_append, QueryArrays.words]
  congr 1
  · refine List.map_congr_left fun i hi => ?_
    have hne : i ≠ count := (List.mem_range.mp hi).ne
    simp only [QueryArrays.write, Function.update_of_ne hne]
  · simp [QueryArrays.write]

inductive Collected.Agrees : Collected → Option (List (UInt32 × UInt32)) → Prop
  | unknown : Agrees .unknown none
  | words (a : QueryArrays) (count : ℕ) : Agrees (.words a count) (some (a.words count))

lemma take_skipFrom (p : UInt8 → Bool) (query : Bytes) (pos : ℕ) :
    (query.drop pos).take (skipFrom p query pos - pos) = (query.drop pos).takeWhile p := by
  rw [skipFrom, Nat.add_sub_cancel_left]
  exact (List.prefix_iff_eq_take.mp (List.takeWhile_prefix p)).symm

lemma wordsFrom_start {start stop : ℕ} (hstart : skipFrom isWordSep query pos = start)
    (hstop : skipFrom (!isWordSep ·) query start = stop) (h : start < query.length) :
    wordsFrom pos (query.drop pos) =
      (start, (query.drop start).take (stop - start)) :: wordsFrom stop (query.drop stop) := by
  subst hstart hstop
  obtain ⟨c, t, hdrop, -, hstart⟩ := exists_start h
  have hskip : pos + ((query.drop pos).length - (c :: t).length) = skipFrom isWordSep query pos := by
    have hsplit := congrArg List.length
      (List.takeWhile_append_dropWhile (p := isWordSep) (l := query.drop pos))
    rw [hdrop, List.length_append] at hsplit
    rw [skipFrom]
    omega
  rw [wordsFrom_cons hdrop, hskip, ← hstart, take_skipFrom, drop_skipFrom (!isWordSep ·)]
  rfl

lemma wordsFrom_end (h : ¬ skipFrom isWordSep query pos < query.length) :
    wordsFrom pos (query.drop pos) = [] := by
  refine wordsFrom_nil ?_
  rw [← drop_skipFrom]
  exact List.drop_eq_nil_of_le (not_lt.mp h)

lemma collectFrom_agrees
    (hroom : outCount + (wordsFrom pos (query.drop pos)).length ≤ queryCapacity) :
    (collectFrom lexicon query pos a outCount).Agrees
      ((wordsFrom pos (query.drop pos)).foldlM (collectWord lexicon) (a.words outCount)) := by
  induction hlen : query.length - pos using Nat.strong_induction_on generalizing pos a outCount with
  | _ len ih =>
    rw [collectFrom]
    by_cases hstart : skipFrom isWordSep query pos < query.length
    · have hle := le_skipFrom isWordSep query pos
      have hlt := lt_stop hstart
      rw [if_pos (hle.trans_lt hstart)]
      simp only [dif_pos hstart]
      rw [wordsFrom_start rfl rfl hstart] at hroom ⊢
      rw [List.length_cons] at hroom
      rw [List.foldlM_cons, collectWord]
      cases lexiconFindExisting lexicon _ with
      | none => exact .unknown
      | some word =>
        simp only [Option.bind_eq_bind, Option.bind_some, any_words]
        split_ifs with hany hwrite
        · exact ih _ (by omega) (by omega) rfl
        · rw [← words_write]
          exact ih _ (by omega) (by omega) rfl
        · omega
    · rw [wordsFrom_end hstart]
      simp only [dif_neg hstart, ite_self]
      exact .words a outCount

end Refines

section Order

variable {lexicon : Lexicon} {query : Bytes} {starts : List (ℕ × Bytes)}
  {words found : List (UInt32 × UInt32)} {w w' : UInt32 × UInt32}

lemma nodup_eraseDups {α : Type} [DecidableEq α] (l : List α) : l.eraseDups.Nodup := by
  induction l using List.reverseRecOn with
  | nil => exact List.nodup_nil
  | append_singleton l a ih =>
    rw [eraseDups_append_singleton]
    split_ifs with hmem
    · exact ih
    · rw [← List.concat_eq_append]
      exact ih.concat fun hdup => hmem (List.mem_eraseDups.mp hdup)

structure FirstOf (found words : List (UInt32 × UInt32)) : Prop where
  ids : words.map Prod.fst = (found.map Prod.fst).eraseDups
  subset : words ⊆ found

lemma FirstOf.any_iff (h : FirstOf found words) (id : UInt32) :
    words.any (fun w => w.1 == id) = true ↔ id ∈ found.map Prod.fst := by
  rw [← List.mem_eraseDups, ← h.ids, List.any_eq_true, List.mem_map]
  simp only [beq_iff_eq]

lemma FirstOf.concat (h : FirstOf found words) (w : UInt32 × UInt32) :
    FirstOf (found ++ [w]) (if words.any (fun v => v.1 == w.1) then words else words ++ [w]) := by
  have hsub := List.Subset.trans h.subset (List.subset_append_left found [w])
  split_ifs with hany
  · refine ⟨?_, hsub⟩
    rw [List.map_append, List.map_singleton, eraseDups_append_singleton,
      if_pos ((h.any_iff w.1).mp hany), h.ids]
  · refine ⟨?_, List.append_subset.mpr ⟨hsub, List.subset_append_right found [w]⟩⟩
    rw [List.map_append, List.map_append, List.map_singleton, eraseDups_append_singleton,
      if_neg fun hmem => hany ((h.any_iff w.1).mpr hmem), h.ids]

lemma collect_firstOf (h : starts.foldlM (collectWord lexicon) [] = some words) :
    ∃ found, starts.map (fun p => lexiconFindExisting lexicon p.2) = found.map some ∧
      FirstOf found words := by
  induction starts using List.reverseRecOn generalizing words with
  | nil =>
    obtain rfl := Option.some.inj h
    exact ⟨[], rfl, rfl, List.Subset.refl _⟩
  | append_singleton starts p ih =>
    rw [List.foldlM_append, Option.bind_eq_bind, Option.bind_eq_some_iff] at h
    obtain ⟨before, hbefore, h⟩ := h
    obtain ⟨found, hfound, hfirst⟩ := ih hbefore
    rw [List.foldlM_cons, Option.bind_eq_bind, Option.bind_eq_some_iff] at h
    obtain ⟨after, hafter, hwords⟩ := h
    obtain rfl := Option.some.inj hwords
    rw [collectWord, Option.bind_eq_bind, Option.bind_eq_some_iff] at hafter
    obtain ⟨w, hw, hafter⟩ := hafter
    refine ⟨found ++ [w], ?_, ?_⟩
    · rw [List.map_append, List.map_append, hfound, List.map_singleton, hw, List.map_singleton]
    · rw [← apply_ite some, Option.some.injEq] at hafter
      exact hafter ▸ hfirst.concat w

lemma lexiconRun_sound {calls : List LexiconCall} (h : lexicon.Sound) :
    (lexiconRun lexicon calls).1.Sound := by
  induction calls generalizing lexicon with
  | nil => exact h
  | cons call calls ih =>
    cases call with
    | findOrAdd data => exact ih (h.findOrAdd data)
    | findExisting data => exact ih h

lemma Lexicon.Sound.bucket_eq (h : lexicon.Sound) {data data' : Bytes}
    (hw : lexiconFindExisting lexicon data = some w)
    (hw' : lexiconFindExisting lexicon data' = some w') (hid : w.1 = w'.1) : w = w' := by
  obtain ⟨entry, hentry, -, hbucket⟩ := lexiconFindExisting_spec h hw
  obtain ⟨entry', hentry', -, hbucket'⟩ := lexiconFindExisting_spec h hw'
  rw [hid, hentry', Option.some.injEq] at hentry
  exact Prod.ext hid (hbucket.symm.trans (hentry ▸ hbucket'))

lemma FirstOf.mem_iff (h : FirstOf found words) (hsound : lexicon.Sound)
    (hfound : starts.map (fun p => lexiconFindExisting lexicon p.2) = found.map some)
    (w : UInt32 × UInt32) : w ∈ words ↔ w ∈ found := by
  have hlookup : ∀ v ∈ found, ∃ p ∈ starts, lexiconFindExisting lexicon p.2 = some v := by
    intro v hv
    have hmem : some v ∈ found.map some := List.mem_map_of_mem hv
    rwa [← hfound, List.mem_map] at hmem
  constructor
  · intro hw
    exact h.subset hw
  · intro hw
    have hid : w.1 ∈ words.map Prod.fst := by
      rw [h.ids, List.mem_eraseDups]
      exact List.mem_map_of_mem hw
    obtain ⟨v, hv, heq⟩ := List.mem_map.mp hid
    obtain ⟨p, -, hp⟩ := hlookup w hw
    obtain ⟨q, -, hq⟩ := hlookup v (h.subset hv)
    exact hsound.bucket_eq hq hp heq ▸ hv

lemma collectQueryWordsInto_agrees (lexicon : Lexicon) (hlimit : query.length ≤ queryLimit)
    (a : QueryArrays) :
    (collectQueryWordsInto lexicon query a).Agrees (collectQueryWords lexicon query) := by
  have hhalf := length_wordsFrom_half 0 query
  have hdrop := List.length_dropWhile_le isWordSep query
  have hroom : 0 + (wordsFrom 0 (query.drop 0)).length ≤ queryCapacity := by
    rw [List.drop_zero, queryCapacity]
    omega
  exact collectFrom_agrees hroom

end Order

def builtLexicon (calls : List LexiconCall) : Lexicon := (lexiconRun lexiconInit calls).1

lemma find_eq_none_iff {calls : List LexiconCall} (hshort : ∀ call ∈ calls, call.bytes.length < 2 ^ 32)
    (hcount : (addedWords calls).eraseDups.length < 2 ^ 32 - 1) (data : Bytes) :
    lexiconFindExisting (builtLexicon calls) data = none ↔ lowerBytes data ∉ addedWords calls := by
  rw [← noteCalls_eq] at hcount
  have hspells := (lexiconRun_spells lexiconInit_spells hshort hcount).1
  rw [noteCalls_eq] at hspells
  rw [builtLexicon, hspells.findExisting, locate]
  split_ifs with hmem
  · exact iff_of_false not_false (not_not.mpr (List.mem_eraseDups.mp hmem))
  · exact iff_of_true rfl fun hadded => hmem (List.mem_eraseDups.mpr hadded)

theorem query_words_fit (calls : List LexiconCall) (query : Bytes)
    (hlimit : query.length ≤ queryLimit) (arrays : QueryArrays) :
    collectQueryWordsInto (builtLexicon calls) query arrays ≠ .overrun ∧
    (∀ a count, collectQueryWordsInto (builtLexicon calls) query arrays = .words a count →
      ∃ found : List (UInt32 × UInt32),
        (wordsFrom 0 query).map (fun p => lexiconFindExisting (builtLexicon calls) p.2) =
          found.map some ∧
        ((a.words count).map Prod.fst).Nodup ∧
        (a.words count).map Prod.fst = (found.map Prod.fst).eraseDups ∧
        ∀ w, w ∈ a.words count ↔ w ∈ found) ∧
    (collectQueryWordsInto (builtLexicon calls) query arrays = .unknown ↔
      ∃ p ∈ wordsFrom 0 query, lexiconFindExisting (builtLexicon calls) p.2 = none) ∧
    ((∀ call ∈ calls, call.bytes.length < 2 ^ 32) →
      (addedWords calls).eraseDups.length < 2 ^ 32 - 1 →
      (collectQueryWordsInto (builtLexicon calls) query arrays = .unknown ↔
        ∃ p ∈ wordsFrom 0 query, lowerBytes p.2 ∉ addedWords calls)) := by
  have hagrees : (collectQueryWordsInto (builtLexicon calls) query arrays).Agrees
      ((wordsFrom 0 query).foldlM (collectWord (builtLexicon calls)) []) :=
    collectQueryWordsInto_agrees _ hlimit arrays
  have hsound : (builtLexicon calls).Sound := lexiconRun_sound lexiconInit_sound
  generalize collectQueryWordsInto (builtLexicon calls) query arrays = result at hagrees ⊢
  generalize hfold : (wordsFrom 0 query).foldlM (collectWord (builtLexicon calls)) [] = fold at hagrees
  have hunknown : result = .unknown ↔
      ∃ p ∈ wordsFrom 0 query, lexiconFindExisting (builtLexicon calls) p.2 = none := by
    cases hagrees with
    | unknown => exact iff_of_true rfl (collect_eq_none hfold)
    | words a count =>
      refine iff_of_false Collected.noConfusion ?_
      rintro ⟨p, hp, hnone⟩
      obtain ⟨w, hw⟩ := exists_of_collect hfold p hp
      rw [hnone] at hw
      cases hw
  refine ⟨?_, fun a count hwords => ?_, hunknown, fun hshort hcount => ?_⟩
  · cases hagrees with
    | unknown => exact Collected.noConfusion
    | words a count => exact Collected.noConfusion
  · subst hwords
    cases hagrees with
    | words =>
      obtain ⟨found, hfound, hfirst⟩ := collect_firstOf hfold
      refine ⟨found, hfound, ?_, hfirst.ids, hfirst.mem_iff hsound hfound⟩
      rw [hfirst.ids]
      exact nodup_eraseDups _
  · rw [hunknown]
    refine exists_congr fun p => and_congr_right fun _ => ?_
    exact find_eq_none_iff hshort hcount p.2

theorem query_words_fit_letter :
    collectQueryWordsInto (builtLexicon [.findOrAdd [97]]) [98] ⟨fun _ => 0, fun _ => 0⟩ = .unknown ∧
      ∃ a count, collectQueryWordsInto (builtLexicon [.findOrAdd [97]]) [97, 32, 97]
          ⟨fun _ => 0, fun _ => 0⟩ = .words a count ∧ ((a.words count).map Prod.fst).Nodup := by
  constructor
  · have hword : wordsFrom 0 [98] = (0, [98]) :: wordsFrom 1 [] :=
      wordsFrom_cons (c := 98) (t := []) rfl
    obtain ⟨-, -, -, hspelled⟩ :=
      query_words_fit [.findOrAdd [97]] [98] (by decide) ⟨fun _ => 0, fun _ => 0⟩
    refine (hspelled (by decide) (by decide)).mpr ⟨(0, [98]), ?_, by decide⟩
    rw [hword]
    exact List.mem_cons_self
  · obtain ⟨hfits, hwords, -, hspelled⟩ :=
      query_words_fit [.findOrAdd [97]] [97, 32, 97] (by decide) ⟨fun _ => 0, fun _ => 0⟩
    rw [wordsFrom_lineA] at hspelled
    cases hresult : collectQueryWordsInto (builtLexicon [.findOrAdd [97]]) [97, 32, 97]
        ⟨fun _ => 0, fun _ => 0⟩ with
    | overrun => exact absurd hresult hfits
    | unknown => exact absurd ((hspelled (by decide) (by decide)).mp hresult) (by decide)
    | words a count =>
      obtain ⟨-, -, hnodup, -⟩ := hwords a count hresult
      exact ⟨a, count, rfl, hnodup⟩

end SystemsLab.Search
