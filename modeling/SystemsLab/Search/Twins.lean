import SystemsLab.Search.Caches
import SystemsLab.Effects.TwoRuns

namespace SystemsLab.Search

open CLib Effects

structure Twin (index : Index) (words : List (UInt32 × UInt32)) (s t : Session) : Prop where
  left : s.index = index
  right : t.index = index
  sound_left : CacheSound s
  sound_right : CacheSound t
  cached_left : ∀ word ∈ words, s.cachePath word.1.toNat ≠ none
  cached_right : ∀ word ∈ words, t.cachePath word.1.toNat ≠ none
  lineBuf : s.lineBuf = t.lineBuf
  out : s.out = t.out

variable {index : Index} {words words' : List (UInt32 × UInt32)} {word : UInt32 × UInt32}
  {s t s' t' : Session} {α : Type}

lemma Twin.refl (h : CacheSound s) : Twin s.index [] s s :=
  ⟨rfl, rfl, h, h, nofun, nofun, rfl, rfl⟩

lemma Twin.weaken (h : Twin index words s t) (hsub : ∀ word ∈ words', word ∈ words) :
    Twin index words' s t :=
  { h with
    cached_left := fun word hword => h.cached_left word (hsub word hword)
    cached_right := fun word hword => h.cached_right word (hsub word hword) }

def Parted (index : Index) (s t : Session) : Prop := Twin index [] s t

lemma Twin.parted (h : Twin index words s t) : Parted index s t := h.weaken nofun

lemma Twin.grow (h : Twin index words s t) (hs : Grows s s') (ht : Grows t t')
    (hs' : s'.cachePath word.1.toNat ≠ none) (ht' : t'.cachePath word.1.toNat ≠ none) :
    Twin index (word :: words) s' t' where
  left := hs.index.trans h.left
  right := ht.index.trans h.right
  sound_left := hs.sound
  sound_right := ht.sound
  cached_left other hother := by
    rcases List.mem_cons.mp hother with rfl | hmem
    · exact hs'
    · exact hs.keeps _ (h.cached_left other hmem)
  cached_right other hother := by
    rcases List.mem_cons.mp hother with rfl | hmem
    · exact ht'
    · exact ht.keeps _ (h.cached_right other hmem)
  lineBuf := by rw [hs.lineBuf, ht.lineBuf, h.lineBuf]
  out := by rw [hs.out, ht.out, h.out]

abbrev Same (index : Index) (words : List (UInt32 × UInt32)) (m : SearchM α)
    (words' : α → List (UInt32 × UInt32)) : Prop :=
  Alike (Twin index words) m (fun a => Twin index (words' a)) (Parted index)

lemma ensureWordCache_same (hword : Known index word) :
    Same index words (ensureWordCache word.1 word.2) fun _ => word :: words := by
  apply Alike.of_ends
  intro s t h
  have hs := ensureWordCache_ends h.sound_left (h.left.symm ▸ hword) fun _ _ => False
  have ht := ensureWordCache_ends h.sound_right (h.right.symm ▸ hword) fun _ _ => False
  refine ⟨(), _, _, hs.imp fun _ _ h => ⟨rfl, h⟩, ht.imp fun _ _ h => ⟨rfl, h⟩, ?_⟩
  intro s' t' hs' ht'
  exact h.grow hs'.1 ht'.1 hs'.2 ht'.2

lemma openCache_cached {s : Session} {wordId : UInt32} {path : Path}
    (h : s.cachePath wordId.toNat = some path) :
    openCache wordId s = .ok (s.files path) s := by
  have hends : Ends (openCache wordId) (fun o s' => o = s.files path ∧ s' = s) (fun _ _ => False)
      s := by
    simp only [openCache, ends_bind, ends_get, h]
    exact ⟨rfl, rfl⟩
  obtain ⟨o, s', hrun, rfl, rfl⟩ := hends.exists_ok
  exact hrun

lemma openCache_same (hword : Known index word) (hmem : word ∈ words) :
    Same index words (openCache word.1) fun _ => words := by
  intro s t h
  obtain ⟨p, hp⟩ := Option.ne_none_iff_exists'.mp (h.cached_left word hmem)
  obtain ⟨q, hq⟩ := Option.ne_none_iff_exists'.mp (h.cached_right word hmem)
  have hs := openCache_cached hp
  have ht := openCache_cached hq
  have hfile := (h.sound_left.cached (h.left.symm ▸ hword) hp).1
  have hfile' := (h.sound_right.cached (h.right.symm ▸ hword) hq).1
  rw [hs, ht]
  refine ⟨?_, h⟩
  rw [hfile, hfile', h.left, h.right]

lemma output_same (m : Emit α) : Same index words (output m) fun _ => words := by
  intro s t h
  simp only [output, h.out]
  cases m t.out with
  | ok a out => exact ⟨rfl, { h with
      sound_left := ⟨h.sound_left.1, h.sound_left.2, h.sound_left.3⟩
      sound_right := ⟨h.sound_right.1, h.sound_right.2, h.sound_right.3⟩
      out := rfl }⟩
  | error e out =>
    have hp := h.parted
    exact ⟨rfl, { hp with
      sound_left := ⟨h.sound_left.1, h.sound_left.2, h.sound_left.3⟩
      sound_right := ⟨h.sound_right.1, h.sound_right.2, h.sound_right.3⟩
      out := rfl }⟩

lemma index_same (f : Index → α) {m : SearchM α}
    (hm : ∀ s, m s = .ok (f s.index) s) :
    Alike (Twin index words) m (fun a s t => Twin index words s t ∧ a = f index) (Parted index) := by
  intro s t h
  rw [hm, hm, h.left, h.right]
  exact ⟨rfl, h, rfl⟩

lemma findExisting_same (data : Bytes) :
    Alike (Twin index words) (findExisting data)
      (fun r s t => Twin index words s t ∧ r = lexiconFindExisting index.lexicon data)
      (Parted index) :=
  index_same (fun index => lexiconFindExisting index.lexicon data) fun _ => rfl

lemma lineNumberSourceOpenWord_same (hword : Known index word) :
    Same index words (lineNumberSourceOpenWord word.1 word.2) fun _ => word :: words := by
  refine (ensureWordCache_same hword).bind fun _ => ?_
  refine (openCache_same hword List.mem_cons_self).bind fun file => ?_
  exact Alike.pure fun _ _ h => h

abbrev Answers (index : Index) (m : SearchM Unit) : Prop :=
  ∀ words, Same index words m fun _ => []

lemma output_answers (m : Emit Unit) : Answers index (output m) := fun _ =>
  (output_same m).mono_post fun _ _ _ h => h.parted

lemma forM_ensureWordCache_same {l : List (UInt32 × UInt32)} (hl : ∀ word ∈ l, Known index word) :
    Same index words (l.forM fun word => ensureWordCache word.1 word.2) fun _ => l ++ words := by
  induction l generalizing words with
  | nil => exact Alike.pure fun _ _ h => h
  | cons word l ih =>
    refine (ensureWordCache_same (hl word List.mem_cons_self)).bind fun _ => ?_
    refine (ih fun other hother => hl other (List.mem_cons_of_mem word hother)).mono_post ?_
    intro _ s t h
    refine h.weaken fun other hother => ?_
    simp only [List.cons_append, List.mem_cons, List.mem_append] at hother ⊢
    tauto

lemma insertWord_perm (count : ℕ → UInt32) (word : UInt32 × UInt32) (l : List (UInt32 × UInt32)) :
    (insertWord count word l).Perm (word :: l) := by
  induction l with
  | nil => exact List.Perm.refl _
  | cons prev l ih =>
    rw [insertWord]
    split_ifs
    · exact List.Perm.refl _
    · exact (ih.cons prev).trans (List.Perm.swap word prev l)

lemma sort_perm (count : ℕ → UInt32) (l : List (UInt32 × UInt32)) :
    (sortQueryWordsByCacheSize count l).Perm l := by
  have hfold : ∀ sorted : List (UInt32 × UInt32),
      (l.foldl (fun sorted word => insertWord count word sorted) sorted).Perm (l ++ sorted) := by
    induction l with
    | nil => exact fun sorted => List.Perm.refl sorted
    | cons word l ih =>
      intro sorted
      refine (ih _).trans ?_
      refine ((insertWord_perm count word sorted).append_left l).trans ?_
      exact List.perm_middle
  refine (List.reverse_perm _).trans ?_
  have h := hfold []
  rwa [List.append_nil] at h

lemma insertWord_congr {count count' : ℕ → UInt32} {l : List (UInt32 × UInt32)}
    (hword : count word.1.toNat = count' word.1.toNat)
    (hl : ∀ other ∈ l, count other.1.toNat = count' other.1.toNat) :
    insertWord count word l = insertWord count' word l := by
  induction l with
  | nil => rfl
  | cons prev l ih =>
    rw [insertWord, insertWord, hword, hl prev List.mem_cons_self,
      ih fun other hother => hl other (List.mem_cons_of_mem prev hother)]

lemma sort_congr {count count' : ℕ → UInt32} {l : List (UInt32 × UInt32)}
    (hl : ∀ word ∈ l, count word.1.toNat = count' word.1.toNat) :
    sortQueryWordsByCacheSize count l = sortQueryWordsByCacheSize count' l := by
  have hfold : ∀ sorted : List (UInt32 × UInt32),
      (∀ word ∈ sorted, count word.1.toNat = count' word.1.toNat) →
      l.foldl (fun sorted word => insertWord count word sorted) sorted =
        l.foldl (fun sorted word => insertWord count' word sorted) sorted := by
    induction l with
    | nil => exact fun _ _ => rfl
    | cons word l ih =>
      intro sorted hsorted
      have hword := hl word List.mem_cons_self
      rw [List.foldl_cons, List.foldl_cons, insertWord_congr hword hsorted]
      apply ih fun other hother => hl other (List.mem_cons_of_mem word hother)
      intro other hother
      rcases List.mem_cons.mp ((insertWord_perm count' word sorted).mem_iff.mp hother) with rfl | h
      · exact hword
      · exact hsorted other h
  rw [sortQueryWordsByCacheSize, sortQueryWordsByCacheSize, hfold [] nofun]

lemma sortedWords_same {l : List (UInt32 × UInt32)} (hl : ∀ word ∈ l, Known index word)
    (hmem : ∀ word ∈ l, word ∈ words) :
    Alike (Twin index words) (sortedWords l)
      (fun sorted s t => Twin index words s t ∧ ∀ word ∈ sorted, Known index word)
      (Parted index) := by
  intro s t h
  have hcount : ∀ word ∈ l, s.cacheCount word.1.toNat = t.cacheCount word.1.toNat := by
    intro word hword
    obtain ⟨p, hp⟩ := Option.ne_none_iff_exists'.mp (h.cached_left word (hmem word hword))
    obtain ⟨q, hq⟩ := Option.ne_none_iff_exists'.mp (h.cached_right word (hmem word hword))
    rw [(h.sound_left.cached (h.left.symm ▸ hl word hword) hp).2,
      (h.sound_right.cached (h.right.symm ▸ hl word hword) hq).2, h.left, h.right]
  change SameEnd _ _ (.ok (sortQueryWordsByCacheSize s.cacheCount l) s)
    (.ok (sortQueryWordsByCacheSize t.cacheCount l) t)
  refine ⟨sort_congr hcount, h, fun word hword => ?_⟩
  exact hl word ((sort_perm s.cacheCount l).mem_iff.mp hword)

section Queries

variable (hindex : index.Sound)

include hindex in
lemma handleSingle_answers (query : Bytes) : Answers index (handleSingle query) := by
  intro words
  rw [handleSingle]
  split_ifs
  · exact output_answers _ words
  refine (findExisting_same query).bind fun r => ?_
  refine Alike.of_fact fun hr => ?_
  rcases r with _ | word
  · exact output_answers _ words
  have hword := lexiconFindExisting_known hindex hr.symm
  refine (ensureWordCache_same hword).bind fun _ => ?_
  refine (openCache_same hword List.mem_cons_self).bind fun file => ?_
  refine (output_same _).bind fun _ => ?_
  exact output_answers _ _

lemma scanPhrase_same (file phrase : Bytes) :
    Same index words (scanPhrase file phrase) fun _ => words := by
  intro s t h
  let scan : SearchM Unit := do
    let mt ← output (scanCachedWord file (phraseConsumer index phrase) ⟨s.lineBuf, 0⟩)
    modify fun s => { s with lineBuf := mt.lineBuf }
  have hscan : Same index words scan fun _ => words := by
    refine (output_same _).bind fun mt => ?_
    refine Alike.modify fun s t h => { h with
      sound_left := ⟨h.sound_left.1, h.sound_left.2, h.sound_left.3⟩
      sound_right := ⟨h.sound_right.1, h.sound_right.2, h.sound_right.3⟩
      lineBuf := rfl }
  have hs : scanPhrase file phrase s = scan s := by
    simp only [scan, ← h.left]
    rfl
  have ht : scanPhrase file phrase t = scan t := by
    simp only [scan, ← h.right, h.lineBuf]
    rfl
  rw [hs, ht]
  exact hscan s t h

include hindex in
lemma handlePhrase_answers (query : Bytes) : Answers index (handlePhrase query) := by
  intro words
  rw [handlePhrase]
  split
  · exact output_answers _ words
  · next phrase _ =>
    refine (findExisting_same _).bind fun r => ?_
    refine Alike.of_fact fun hr => ?_
    rcases r with _ | word
    · exact output_answers _ words
    have hword := lexiconFindExisting_known hindex hr.symm
    refine (ensureWordCache_same hword).bind fun _ => ?_
    refine (openCache_same hword List.mem_cons_self).bind fun file => ?_
    refine (scanPhrase_same file phrase).bind fun _ => ?_
    exact output_answers _ _

include hindex in
lemma handlePattern_answers (query : Bytes) : Answers index (handlePattern query) := by
  intro words
  rw [handlePattern]
  split
  · exact output_answers _ words
  · next left right _ =>
    refine (findExisting_same left).bind fun l => Alike.of_fact fun hl => ?_
    refine (findExisting_same right).bind fun r => Alike.of_fact fun hr => ?_
    rcases l with _ | lword
    · exact output_answers _ words
    rcases r with _ | rword
    · exact output_answers _ words
    have hlword := lexiconFindExisting_known hindex hl.symm
    have hrword := lexiconFindExisting_known hindex hr.symm
    refine (ensureWordCache_same hlword).bind fun _ => ?_
    refine (ensureWordCache_same hrword).bind fun _ => ?_
    refine (openCache_same hlword (List.mem_cons_of_mem _ List.mem_cons_self)).bind fun lf => ?_
    refine (openCache_same hrword List.mem_cons_self).bind fun rf => ?_
    refine (output_same _).bind ?_
    rintro ⟨_, leftReader⟩
    refine (output_same _).bind ?_
    rintro ⟨_, rightReader⟩
    refine (output_same _).bind fun _ => ?_
    exact output_answers _ _

lemma multiStages_answers (lines : Bytes) {l : List (UInt32 × UInt32)}
    (hl : ∀ word ∈ l, Known index word) : Answers index (multiStages lines l) := by
  intro words
  fun_induction multiStages lines l generalizing words with
  | case1 => exact Alike.pure fun _ _ h => h.parted
  | case2 lines wordId bucket =>
    refine (lineNumberSourceOpenWord_same (hl _ List.mem_cons_self)).bind fun right => ?_
    refine (output_same _).bind fun _ => ?_
    exact Alike.pure fun _ _ h => h.parted
  | case3 lines wordId bucket l hne ih =>
    refine (lineNumberSourceOpenWord_same (hl _ List.mem_cons_self)).bind fun right => ?_
    refine (output_same _).bind ?_
    rintro ⟨lines', matchCount⟩
    by_cases hcount : matchCount = 0
    · simp only [hcount, if_true]
      exact output_answers _ _
    · simp only [hcount, if_false]
      exact ih lines' (fun word hword => hl word (List.mem_cons_of_mem _ hword)) _

lemma collect_known (hindex : index.Sound) {starts : List (ℕ × Bytes)} {l : List (UInt32 × UInt32)}
    (hwords : ∀ word ∈ words, Known index word)
    (h : starts.foldlM (fun words start => do
      let word ← lexiconFindExisting index.lexicon start.2
      if words.any (fun w => w.1 == word.1) then some words else some (words ++ [word])) words =
        some l) : ∀ word ∈ l, Known index word := by
  induction starts generalizing words with
  | nil =>
    obtain rfl := Option.some.inj h
    exact hwords
  | cons start starts ih =>
    rw [List.foldlM_cons, Option.bind_eq_bind, Option.bind_eq_some_iff] at h
    obtain ⟨next, hnext, h⟩ := h
    rw [Option.bind_eq_bind, Option.bind_eq_some_iff] at hnext
    obtain ⟨word, hfind, hnext⟩ := hnext
    split_ifs at hnext
    · obtain rfl := Option.some.inj hnext
      exact ih hwords h
    · obtain rfl := Option.some.inj hnext
      apply ih _ h
      intro other hother
      rcases List.mem_append.mp hother with hmem | hmem
      · exact hwords other hmem
      · rw [List.mem_singleton.mp hmem]
        exact lexiconFindExisting_known hindex hfind

lemma queryWords_same (query : Bytes) :
    Alike (Twin index words) (queryWords query)
      (fun r s t => Twin index words s t ∧ r = collectQueryWords index.lexicon query)
      (Parted index) :=
  index_same (fun index => collectQueryWords index.lexicon query) fun _ => rfl

include hindex in
lemma handleMulti_answers (query : Bytes) : Answers index (handleMulti query) := by
  intro words
  rw [handleMulti]
  refine (queryWords_same query).bind fun r => Alike.of_fact fun hr => ?_
  rcases r with _ | l
  · exact output_answers _ words
  rcases l with _ | ⟨first, rest⟩
  · exact output_answers _ words
  have hnil : ∀ word ∈ ([] : List (UInt32 × UInt32)), Known index word := nofun
  have hknown : ∀ word ∈ first :: rest, Known index word := collect_known hindex hnil hr.symm
  refine (forM_ensureWordCache_same hknown).bind fun _ => ?_
  refine (sortedWords_same hknown fun word hword => List.mem_append_left _ hword).bind ?_
  intro sorted
  refine Alike.of_fact fun hsorted => ?_
  rcases sorted with _ | ⟨left, _ | ⟨right, others⟩⟩
  · exact Alike.pure fun _ _ h => h.parted
  · refine (lineNumberSourceOpenWord_same (hsorted left List.mem_cons_self)).bind fun source => ?_
    exact output_answers _ _
  · have hright := hsorted right (List.mem_cons_of_mem _ List.mem_cons_self)
    refine (lineNumberSourceOpenWord_same (hsorted left List.mem_cons_self)).bind fun l => ?_
    refine (lineNumberSourceOpenWord_same hright).bind fun r => ?_
    split_ifs with hnil
    · refine (output_same _).bind fun _ => ?_
      exact Alike.pure fun _ _ h => h.parted
    · refine (output_same _).bind ?_
      rintro ⟨lines, matchCount⟩
      by_cases hcount : matchCount = 0
      · simp only [hcount, if_true]
        exact output_answers _ _
      · simp only [hcount, if_false]
        apply multiStages_answers
        intro word hword
        exact hsorted word (List.mem_cons_of_mem _ (List.mem_cons_of_mem _ hword))

def Rested (index : Index) (s t : Session) : Prop :=
  Twin index [] { s with lineBuf := [] } { t with lineBuf := [] }

include hindex in
lemma handleQuery_answers (query : Bytes) :
    Alike (Rested index) (handleQuery query) (fun _ => Parted index) (Parted index) := by
  rw [handleQuery]
  have hclear : Alike (Rested index) (modify queryScratchReset : SearchM Unit) (fun _ => Parted index)
      (Parted index) := Alike.modify fun s t h => h
  refine hclear.bind fun _ => ?_
  split_ifs
  · exact handlePhrase_answers hindex query []
  · exact handlePattern_answers hindex query []
  · split
    · exact output_answers _ []
    · exact handleSingle_answers hindex _ []
    · exact handleMulti_answers hindex query []

end Queries

end SystemsLab.Search
