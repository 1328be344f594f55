import SystemsLab.Search.Readers
import SystemsLab.Search.SingleWord

namespace SystemsLab.Search

open CLib Effects Streams

def lineNoRef (k : ℕ) : Bytes := decimal k ++ ascii " "

def PatternAt (input left right : Bytes) (k : ℕ) : Prop :=
  ∃ a b, a < b ∧ WordAt input left (k, a) ∧ WordAt input right (k, b)

def orderTest (ls rs : List OccRecord) : Bool :=
  match ls.head?, rs.getLast? with
  | some a, some b => decide (a.startIdx < b.startIdx)
  | _, _ => false

variable {input query : Bytes} {left right : OccurrenceReader} {ls rs : List OccRecord}
  {s : Session} {E : Unit → Bytes → Prop} {out : Bytes}

lemma ends_emitLineNo {lineNo : UInt32} {Q : Unit → Bytes → Prop} :
    Ends (emitLineNo lineNo) Q E out ↔ Q () (out ++ lineNoRef lineNo.toNat) := by
  rw [emitLineNo, ends_emit, writeU32_eq]
  rfl

lemma orderTest_cons (a b : OccRecord) (as bs : List OccRecord) (last : UInt32) :
    orderTest (a :: as) (b :: bs) = decide (a.startIdx < lastStart (b :: bs) last) := by
  rw [orderTest, lastStart, List.head?_cons, List.getLast?_cons]
  rfl

lemma patternFrom_ends (hl : Showing left ls) (hr : Showing right rs) :
    Ends (patternFrom left right)
      (fun _ out' => out' = out ++
        (mergeGroups OccRecord.line OccRecord.line orderTest ls rs).flatMap lineNoRef) E out := by
  induction hn : ls.length + rs.length using Nat.strong_induction_on generalizing ls rs left right out with
  | h n ih =>
    subst hn
    rw [patternFrom]
    by_cases hitem : left.hasItem = true ∧ right.hasItem = true
    · obtain ⟨ls', rfl, -⟩ := hl.cons hitem.1
      obtain ⟨rs', rfl, -⟩ := hr.cons hitem.2
      have hle := length_dropGroup_le OccRecord.line left.current.line ls'
      have hle' := length_dropGroup_le OccRecord.line right.current.line rs'
      obtain ⟨left', hleft, hl'⟩ := skipLine_shows hl left.current.lineNo
      obtain ⟨right', hright, hr'⟩ := skipLine_shows hr right.current.lineNo
      rw [dropGroup_cons_of_eq ((line_eq_iff _ _).mpr rfl)] at hl' hr'
      change Showing left' (dropGroup OccRecord.line left.current.line ls') at hl'
      change Showing right' (dropGroup OccRecord.line right.current.line rs') at hr'
      rw [dif_pos hitem, mergeGroups]
      by_cases hlt : left.current.line < right.current.line
      · rw [if_pos hlt, if_pos (UInt32.lt_iff_toNat_lt.mpr hlt)]
        split
        · next h =>
          rw [hleft] at h
          cases h
        · next h =>
          rw [hleft] at h
          cases h
          exact ih _ (by simp only [List.length_cons]; omega) hl' hr rfl
      rw [if_neg hlt, if_neg fun h => hlt (UInt32.lt_iff_toNat_lt.mp h)]
      by_cases hgt : right.current.line < left.current.line
      · rw [if_pos hgt, if_pos (UInt32.lt_iff_toNat_lt.mpr hgt)]
        split
        · next h =>
          rw [hright] at h
          cases h
        · next h =>
          rw [hright] at h
          cases h
          exact ih _ (by simp only [List.length_cons]; omega) hl hr' rfl
      rw [if_neg hgt, if_neg fun h => hgt (UInt32.lt_iff_toNat_lt.mp h)]
      have heq : right.current.line = left.current.line :=
        le_antisymm (not_lt.mp hlt) (not_lt.mp hgt)
      obtain ⟨right₂, hlast, hr₂⟩ := skipLineLast_shows hr left.current.lineNo right.current.startIdx
      have heq' : right.current.line = left.current.lineNo.toNat := heq
      rw [dropGroup_cons_of_eq heq'] at hr₂
      change Showing right₂ (dropGroup OccRecord.line left.current.line rs') at hr₂
      rw [takeGroup_cons_of_eq heq'] at hlast
      rw [orderTest_cons _ _ _ _ right.current.startIdx, List.flatMap_append, ← List.append_assoc, heq]
      split
      · next left₂ right₃ last h h' =>
        rw [hleft] at h
        rw [hlast] at h'
        cases h
        cases h'
        rw [heq] at hle'
        have hrest : ∀ out', Ends (patternFrom left' right₂) _ E out' := fun out' =>
          ih _ (by simp only [List.length_cons]; omega) hl' hr₂ rfl
        rw [ends_ite]
        constructor
        · intro htest
          have htest' : decide (left.current.startIdx < lastStart (right.current ::
            takeGroup OccRecord.line left.current.line rs') right.current.startIdx) = true :=
              decide_eq_true htest
          rw [ends_bind, ends_emitLineNo, if_pos htest', List.flatMap_singleton]
          exact hrest _
        · intro htest
          have htest' : ¬decide (left.current.startIdx < lastStart (right.current ::
            takeGroup OccRecord.line left.current.line rs') right.current.startIdx) = true :=
              fun h => htest (of_decide_eq_true h)
          rw [if_neg htest', List.flatMap_nil, List.append_nil]
          exact hrest _
      · next h =>
        exact (h _ _ _ hleft hlast).elim
    · rw [dif_neg hitem]
      have hnil : mergeGroups OccRecord.line OccRecord.line orderTest ls rs = [] := by
        rw [hl.hasItem_iff, hr.hasItem_iff, not_and_or, not_not, not_not] at hitem
        rcases hitem with rfl | rfl
        · exact mergeGroups_nil_left rs
        · exact mergeGroups_nil_right ls
      rw [hnil]
      exact (List.append_nil out).symm

structure IsSide (word : Bytes) : Prop where
  ne_nil : word ≠ []
  no_quote : 34 ∉ word
  no_star : 42 ∉ word
  no_sep : ∀ c ∈ word, isWordSep c = false

def starred (left right : Bytes) : Bytes := left ++ 42 :: right

section Query

variable {left right : Bytes}

lemma patternOf_starred (hl : IsSide left) (hr : IsSide right) :
    patternOf (starred left right) = some (left, right) := by
  have hall : ∀ c ∈ left, decide (c ≠ 42) = true := by
    intro c hc
    rw [decide_eq_true_eq]
    rintro rfl
    exact hl.no_star hc
  have htake : (starred left right).takeWhile (· ≠ 42) = left := by
    rw [starred, List.takeWhile_append_of_pos hall, List.takeWhile_cons_of_neg (by simp),
      List.append_nil]
  have hdrop : ((starred left right).dropWhile (· ≠ 42)).tail = right := by
    rw [starred, List.dropWhile_append_of_pos hall, List.dropWhile_cons_of_neg (by simp)]
    rfl
  have hsep : (starred left right).any isWordSep = false := by
    rw [List.any_eq_false]
    intro c hc
    rw [Bool.not_eq_true]
    rcases List.mem_append.mp hc with hc | hc
    · exact hl.no_sep c hc
    · rcases List.mem_cons.mp hc with rfl | hc
      · rfl
      · exact hr.no_sep c hc
  have hstar : right.contains 42 = false := by simpa using hr.no_star
  rw [patternOf, htake, hdrop, hsep, hstar]
  simp [hl.ne_nil, hr.ne_nil]

lemma starred_of_patternOf (h : patternOf query = some (left, right)) (hquote : 34 ∉ query) :
    IsSide left ∧ IsSide right ∧ query = starred left right := by
  rw [patternOf] at h
  split_ifs at h with hbad hsep
  obtain ⟨rfl, rfl⟩ := Prod.mk.inj (Option.some.inj h)
  push Not at hbad
  obtain ⟨hleft, hright, hstar⟩ := hbad
  have hstar : 42 ∉ (query.dropWhile (· ≠ 42)).tail := by simpa using hstar
  have hnosep : ∀ c ∈ query, isWordSep c = false := by simpa using hsep
  have hsplit := List.takeWhile_append_dropWhile (p := (· ≠ (42 : UInt8))) (l := query)
  cases hdrop : query.dropWhile (· ≠ 42) with
  | nil =>
    rw [hdrop] at hright
    exact (hright rfl).elim
  | cons c rest =>
    have hc : c = 42 := by
      have hhead := List.head_dropWhile_not (· ≠ (42 : UInt8)) (l := query) (by rw [hdrop]; exact nofun)
      simpa only [hdrop, List.head_cons, decide_eq_false_iff_not, not_not] using hhead
    subst hc
    rw [hdrop] at hsplit hright hstar
    have hmem : ∀ c ∈ rest, c ∈ query := fun c hc => by
      rw [← hsplit]
      exact List.mem_append_right _ (List.mem_cons_of_mem _ hc)
    have hmem' : ∀ c ∈ query.takeWhile (· ≠ 42), c ∈ query :=
      fun c hc => (List.takeWhile_prefix _).subset hc
    refine ⟨⟨hleft, fun h34 => hquote (hmem' _ h34), ?_, fun c hc => hnosep c (hmem' c hc)⟩,
      ⟨hright, fun h34 => hquote (hmem _ h34), hstar, fun c hc => hnosep c (hmem c hc)⟩, hsplit.symm⟩
    intro h42
    have hne := List.mem_takeWhile_imp h42
    exact absurd rfl (of_decide_eq_true hne)

end Query

section Lines

variable {left right word : Bytes} {k : ℕ} {wordId leftId rightId : UInt32}

def recordsOf (input word : Bytes) (wordId : UInt32) : List OccRecord :=
  (wordTokens (textTokens input) word).map (tokenRecord wordId)

def RecordLE (a b : OccRecord) : Prop :=
  a.line ≤ b.line ∧ (a.line = b.line → a.startIdx.toNat ≤ b.startIdx.toNat)

lemma recordsOf_sorted (h : Indexable input) (word : Bytes) (wordId : UInt32) :
    (recordsOf input word wordId).Pairwise RecordLE := by
  have hplaces := places_sorted h.lines word
  rw [List.pairwise_map] at hplaces
  rw [recordsOf, List.pairwise_map]
  refine hplaces.imp_of_mem fun {t t'} ht ht' hlt => ?_
  have hstart := wordTokens_start h word t ht
  have hstart' := wordTokens_start h word t' ht'
  change t.lineNo.toNat ≤ t'.lineNo.toNat ∧ (t.lineNo.toNat = t'.lineNo.toNat →
    (UInt32.ofNat t.start).toNat ≤ (UInt32.ofNat t'.start).toNat)
  rw [hstart, hstart']
  rcases hlt with hlt | ⟨heq, hlt⟩
  · exact ⟨hlt.le, fun h => absurd h hlt.ne⟩
  · exact ⟨heq.le, fun _ => hlt.le⟩

lemma group_recordsOf (h : Indexable input) (word : Bytes) (wordId : UInt32) (k : ℕ) :
    (group OccRecord.line k (recordsOf input word wordId)).Pairwise
      fun a b => a.startIdx.toNat ≤ b.startIdx.toNat := by
  have hsorted := (recordsOf_sorted h word wordId).sublist
    (List.filter_sublist (p := fun r => decide (r.line = k)))
  refine hsorted.imp_of_mem fun {a b} ha hb hle => hle.2 ?_
  rw [(mem_group.mp ha).2, (mem_group.mp hb).2]

lemma mem_group_recordsOf (h : Indexable input) {start : ℕ} :
    (∃ a ∈ group OccRecord.line k (recordsOf input word wordId), a.startIdx.toNat = start) ↔
      WordAt input word (k, start) := by
  rw [← mem_places h.lines]
  simp only [mem_group, recordsOf, List.mem_map]
  constructor
  · rintro ⟨a, ⟨⟨t, ht, rfl⟩, rfl⟩, rfl⟩
    exact ⟨t, ht, Prod.ext rfl (wordTokens_start h word t ht).symm⟩
  · rintro ⟨t, ht, hplace⟩
    refine ⟨tokenRecord wordId t, ⟨⟨t, ht, rfl⟩, congrArg Prod.fst hplace⟩, ?_⟩
    exact (wordTokens_start h word t ht).trans (congrArg Prod.snd hplace)

lemma orderTest_iff (hl : ls.Pairwise fun a b => a.startIdx.toNat ≤ b.startIdx.toNat)
    (hr : rs.Pairwise fun a b => a.startIdx.toNat ≤ b.startIdx.toNat) :
    orderTest ls rs = true ↔ ∃ a ∈ ls, ∃ b ∈ rs, a.startIdx.toNat < b.startIdx.toNat := by
  cases ls with
  | nil => simp [orderTest]
  | cons a ls =>
    rcases List.eq_nil_or_concat rs with rfl | ⟨rs, b, rfl⟩
    · simp [orderTest]
    · rw [List.concat_eq_append] at hr ⊢
      rw [orderTest, List.head?_cons, List.getLast?_concat]
      simp only [decide_eq_true_eq, UInt32.lt_iff_toNat_lt]
      constructor
      · intro hlt
        exact ⟨a, List.mem_cons_self, b, List.mem_append_right _ (List.mem_singleton_self b), hlt⟩
      · rintro ⟨a', ha', b', hb', hlt⟩
        have hfirst : a.startIdx.toNat ≤ a'.startIdx.toNat := by
          rcases List.mem_cons.mp ha' with rfl | ha'
          · exact le_rfl
          · exact (List.pairwise_cons.mp hl).1 a' ha'
        have hlast : b'.startIdx.toNat ≤ b.startIdx.toNat := by
          rcases List.mem_append.mp hb' with hb' | hb'
          · exact (List.pairwise_append.mp hr).2.2 b' hb' b (List.mem_singleton_self b)
          · rw [List.mem_singleton.mp hb']
        omega

def patternLines (input left right : Bytes) (leftId rightId : UInt32) : List ℕ :=
  mergeGroups OccRecord.line OccRecord.line orderTest (recordsOf input left leftId)
    (recordsOf input right rightId)

lemma recordsOf_sorted_line (h : Indexable input) (word : Bytes) (wordId : UInt32) :
    Sorted OccRecord.line (recordsOf input word wordId) :=
  (recordsOf_sorted h word wordId).imp fun hle => hle.1

lemma mem_patternLines (h : Indexable input) :
    k ∈ patternLines input left right leftId rightId ↔ PatternAt input left right k := by
  rw [patternLines, mem_mergeGroups (recordsOf_sorted_line h left leftId)
    (recordsOf_sorted_line h right rightId), Passes,
    orderTest_iff (group_recordsOf h left leftId k) (group_recordsOf h right rightId k)]
  constructor
  · rintro ⟨-, -, a, ha, b, hb, hlt⟩
    exact ⟨_, _, hlt, (mem_group_recordsOf h).mp ⟨a, ha, rfl⟩, (mem_group_recordsOf h).mp ⟨b, hb, rfl⟩⟩
  · rintro ⟨i, j, hlt, hl, hr⟩
    obtain ⟨a, ha, rfl⟩ : ∃ a ∈ group OccRecord.line k (recordsOf input left leftId), _ :=
      (mem_group_recordsOf h).mpr hl
    obtain ⟨b, hb, rfl⟩ : ∃ b ∈ group OccRecord.line k (recordsOf input right rightId), _ :=
      (mem_group_recordsOf h).mpr hr
    exact ⟨List.ne_nil_of_mem ha, List.ne_nil_of_mem hb, a, ha, b, hb, hlt⟩

lemma patternLines_sorted (h : Indexable input) (left right : Bytes) (leftId rightId : UInt32) :
    (patternLines input left right leftId rightId).Pairwise (· < ·) :=
  mergeGroups_sorted (recordsOf_sorted_line h left leftId) (recordsOf_sorted_line h right rightId)

end Lines

section Handler

variable {left right : Bytes}

lemma openReader_ends {records : List OccRecord} {Q : Bool × OccurrenceReader → Bytes → Prop}
    (h : ∀ b r, Showing r records → Q (b, r) out) :
    Ends (orError (occurrenceReaderNext (FileReader.openFile (records.flatMap OccRecord.bytes)))) Q E
      out := by
  obtain ⟨b, r, hnext, hshows⟩ := occurrenceReaderNext_shows (FileReader.openFile_holds records)
  rw [hnext]
  exact h b r hshows

lemma handlePattern_ends (h : Indexable input) (hquery : patternOf query = some (left, right)) :
    ∃ leftId rightId, ∀ s, CacheSound s → s.index = indexBuild input → Ends (handlePattern query)
      (fun _ s' => s'.out =
        s.out ++ (patternLines input left right leftId rightId).flatMap lineNoRef ++ [newline])
      (fun _ _ => False) s := by
  have hcount := h.spellable.vocabulary_length
  have hfind := h.spellable.posts.findExisting (by omega)
  rw [handlePattern, hquery]
  simp only [ends_bind, ends_findExisting]
  rcases hfind left with ⟨hnone, hempty⟩ | ⟨l, hleft, hlrecords⟩
  · refine ⟨0, 0, fun s hs hindex => ?_⟩
    rw [hindex, hnone, patternLines, recordsOf, hempty, List.map_nil, mergeGroups_nil_left]
    simp [emitBlankLine]
  rcases hfind right with ⟨hnone, hempty⟩ | ⟨r, hright, hrrecords⟩
  · refine ⟨0, 0, fun s hs hindex => ?_⟩
    have hnil : patternLines input left right 0 0 = [] := by
      rw [patternLines, recordsOf, recordsOf, hempty, List.map_nil, mergeGroups_nil_right]
    rw [hindex, hnone, hnil, hleft]
    simp [emitBlankLine]
  refine ⟨l.1, r.1, fun s hs hindex => ?_⟩
  have hlknown : Known (indexBuild input) l := lexiconFindExisting_known (indexBuild_sound input) hleft
  have hrknown : Known (indexBuild input) r :=
    lexiconFindExisting_known (indexBuild_sound input) hright
  rw [hindex, hleft, hright]
  change Ends (ensureWordCache l.1 l.2 >>= _) _ _ s
  simp only [ends_bind, ends_output]
  refine (ensureWordCache_ends hs (hindex ▸ hlknown) _).imp fun _ s₁ h₁ => ?_
  have hindex₁ : s₁.index = indexBuild input := h₁.1.index.trans hindex
  refine (ensureWordCache_ends h₁.1.sound (hindex₁ ▸ hrknown) _).imp fun _ s₂ h₂ => ?_
  have hindex₂ : s₂.index = indexBuild input := h₂.1.index.trans hindex₁
  refine (openCache_file h₂.1.sound (hindex₂ ▸ hlknown) (h₂.1.keeps _ h₁.2) _).imp ?_
  rintro _ _ ⟨rfl, rfl⟩
  refine (openCache_file h₂.1.sound (hindex₂ ▸ hrknown) h₂.2 _).imp ?_
  rintro _ _ ⟨rfl, rfl⟩
  rw [hindex₂, hlrecords, hrrecords]
  refine openReader_ends fun _ leftReader hl => openReader_ends fun _ rightReader hr => ?_
  refine (patternFrom_ends hl hr).imp fun _ out hout => ?_
  rw [emitBlankLine, ends_emit, hout, h₂.1.out, h₁.1.out]
  rfl

end Handler

lemma handleQuery_pattern {Q F : Unit → Session → Prop} (hquote : 34 ∉ query) (hstar : 42 ∈ query)
    (h : Ends (handlePattern query) Q F (queryScratchReset s)) : Ends (handleQuery query) Q F s := by
  have hquote' : query.contains 34 = false := by simpa using hquote
  have hstar' : query.contains 42 = true := by simpa using hstar
  rw [handleQuery, hquote', hstar', ends_bind, ends_modify]
  exact h

theorem pattern_query_lines (h : Indexable input) (history : List Bytes) :
    (∀ left right, IsSide left → IsSide right → ∃ lines : List ℕ, lines.Pairwise (· < ·) ∧
      (∀ k, k ∈ lines ↔ PatternAt input left right k) ∧
      (answer (starred left right) (afterQueries input history)).1 =
        (true, lines.flatMap lineNoRef ++ [newline])) ∧
    ∀ query, 42 ∈ query → 34 ∉ query →
      (∀ left right, IsSide left → IsSide right → query ≠ starred left right) →
        (answer query (afterQueries input history)).1 = (true, [newline]) := by
  constructor
  · intro left right hl hr
    have hquote : 34 ∉ starred left right := by
      simp [starred, hl.no_quote, hr.no_quote]
    have hstar : 42 ∈ starred left right := by simp [starred]
    obtain ⟨leftId, rightId, hends⟩ := handlePattern_ends h (patternOf_starred hl hr)
    refine ⟨patternLines input left right leftId rightId,
      patternLines_sorted h left right leftId rightId, fun k => mem_patternLines h, ?_⟩
    refine answer_eq fun s hs hindex hout => handleQuery_pattern hquote hstar ?_
    have hclear : CacheSound (queryScratchReset s) := ⟨hs.index, hs.path_lt, hs.holds⟩
    refine (hends _ hclear hindex).imp fun _ s' hs' => ?_
    change s'.out = s.out ++ _ ++ _ at hs'
    rw [hs', hout, List.nil_append]
  · intro query hstar hquote hother
    have hnone : patternOf query = none := by
      cases hof : patternOf query with
      | none => rfl
      | some sides =>
        obtain ⟨hl, hr, heq⟩ := starred_of_patternOf hof hquote
        exact (hother _ _ hl hr heq).elim
    refine answer_eq fun s hs hindex hout => handleQuery_pattern hquote hstar ?_
    rw [handlePattern, hnone]
    simp only [ends_output, emitBlankLine, ends_emit]
    change s.out ++ _ = _
    rw [hout, List.nil_append]

theorem pattern_query_lines_same_word :
    ∃ lines : List ℕ, lines.Pairwise (· < ·) ∧
      (∀ k, k ∈ lines ↔ PatternAt (ascii "a\nA b a") (ascii "a") (ascii "A") k) ∧
      (answer (ascii "a*A") (afterQueries (ascii "a\nA b a") [])).1 =
        (true, lines.flatMap lineNoRef ++ [newline]) := by
  have hfits : Indexable (ascii "a\nA b a") := indexable_of_length (by decide)
  have hl : IsSide (ascii "a") := ⟨by decide, by decide, by decide, no_sep_of_any rfl⟩
  have hr : IsSide (ascii "A") := ⟨by decide, by decide, by decide, no_sep_of_any rfl⟩
  exact (pattern_query_lines hfits []).1 _ _ hl hr

end SystemsLab.Search
