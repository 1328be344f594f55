import SystemsLab.Search.Twins
import Mathlib.Data.List.Induction

namespace SystemsLab.Search

open CLib Effects

variable {index : Index} {word : UInt32 × UInt32} {s t : Session} {α : Type}

/-- A query of the main loop, which flushes the output after each: whether `handle_query` succeeds,
what it prints, and the session after it. -/
def answer (query : Bytes) (s : Session) : (Bool × Bytes) × Session :=
  match handleQuery query { s with out := [] } with
  | .ok _ s' => ((true, s'.out), s')
  | .error _ s' => ((false, s'.out), s')

def afterQueries (input : Bytes) (history : List Bytes) : Session :=
  history.foldl (fun s query => (answer query s).2) (freshSession input)

lemma answer_same (hindex : index.Sound) (query : Bytes)
    (h : Rested index { s with out := [] } { t with out := [] }) :
    (answer query s).1 = (answer query t).1 ∧
      Parted index (answer query s).2 (answer query t).2 := by
  have hend := handleQuery_answers hindex query _ _ h
  rw [answer, answer]
  cases hs : handleQuery query { s with out := [] } with
  | ok _ s' =>
    cases ht : handleQuery query { t with out := [] } with
    | ok _ t' =>
      rw [hs, ht] at hend
      exact ⟨congrArg (Prod.mk true) hend.2.out, hend.2⟩
    | error _ t' =>
      rw [hs, ht] at hend
      exact hend.elim
  | error _ s' =>
    cases ht : handleQuery query { t with out := [] } with
    | ok _ t' =>
      rw [hs, ht] at hend
      exact hend.elim
    | error _ t' =>
      rw [hs, ht] at hend
      exact ⟨congrArg (Prod.mk false) hend.2.out, hend.2⟩

lemma Parted.rested (h : Parted index s t) :
    Rested index { s with out := [] } { t with out := [] } where
  left := h.left
  right := h.right
  sound_left := ⟨h.sound_left.1, h.sound_left.2, h.sound_left.3⟩
  sound_right := ⟨h.sound_right.1, h.sound_right.2, h.sound_right.3⟩
  cached_left := nofun
  cached_right := nofun
  lineBuf := rfl
  out := rfl

lemma afterQueries_sound (input : Bytes) (history : List Bytes) :
    CacheSound (afterQueries input history) ∧
      (afterQueries input history).index = indexBuild input := by
  induction history using List.reverseRecOn with
  | nil => exact ⟨freshSession_sound input, rfl⟩
  | append_singleton history query ih =>
    have hself : Parted (indexBuild input) (afterQueries input history)
        (afterQueries input history) := ih.2 ▸ Twin.refl ih.1
    have hnext := (answer_same (indexBuild_sound input) query hself.rested).2
    rw [afterQueries, List.foldl_append]
    exact ⟨hnext.sound_left, hnext.left⟩

lemma answer_fresh (input : Bytes) (history : List Bytes) (query : Bytes) :
    (answer query (afterQueries input history)).1 = (answer query (freshSession input)).1 := by
  obtain ⟨hsound, hindex⟩ := afterQueries_sound input history
  have hfresh := freshSession_sound input
  have hrested : Rested (indexBuild input) { afterQueries input history with out := [] }
      { freshSession input with out := [] } :=
    ⟨hindex, rfl, ⟨hsound.1, hsound.2, hsound.3⟩, ⟨hfresh.1, hfresh.2, hfresh.3⟩, nofun, nofun,
      rfl, rfl⟩
  exact (answer_same (indexBuild_sound input) query hrested).1

theorem answers_ignore_history (input : Bytes) (history : List Bytes) (query : Bytes) :
    (answer query (afterQueries input history)).1 = (answer query (freshSession input)).1 ∧
      ∀ (i : ℕ) (path : Path), (afterQueries input history).cachePath i = some path →
        ∃ entry, (indexBuild input).lexicon.entries[i]? = some entry ∧
          (afterQueries input history).files path =
            (wordRecords (indexBuild input) entry.id entry.bucket).flatMap OccRecord.bytes ∧
          (afterQueries input history).cacheCount i =
            UInt32.ofNat (wordRecords (indexBuild input) entry.id entry.bucket).length := by
  refine ⟨answer_fresh input history query, fun i path hpath => ?_⟩
  obtain ⟨hsound, hindex⟩ := afterQueries_sound input history
  obtain ⟨entry, hentry⟩ := hsound.holds i path hpath
  rw [hindex] at hentry
  exact ⟨entry, hentry⟩

def repeatedLines (n : ℕ) : Bytes := (List.replicate n [97, 32, 97, newline]).flatten

def wordA : Bytes := [97]
def bucketA : UInt32 := hashLowerBytes wordA % occBuckets
def lexiconA : Lexicon := (lexiconAdd lexiconInit wordA).1

structure OnlyA (k : ℕ) (index : Index) : Prop where
  finds : lexiconFindOrAdd index.lexicon wordA = (lexiconA, 0, bucketA)
  lexicon : 0 < k → index.lexicon = lexiconA
  records : ∃ rs : List OccRecord, index.occFiles bucketA.toNat = rs.flatMap OccRecord.bytes ∧
    rs.length = k ∧ ∀ r ∈ rs, r.wordId = 0

lemma find_lexiconA : lexiconFindExisting lexiconA wordA = some (0, bucketA) := by
  have hs : lexiconA.slots ((hashLowerBytes wordA).toNat % lexiconA.slotCount) = 1 := by
    simp only [lexiconA, lexiconAdd, Function.update_self]
    rfl
  rw [lexiconFindExisting, lexiconLookup, hs, lookupFrom, if_neg (by decide)]
  rfl

lemma findOrAdd_lexiconA : lexiconFindOrAdd lexiconA wordA = (lexiconA, 0, bucketA) := by
  rw [lexiconFindOrAdd, find_lexiconA]

lemma indexInit_onlyA (input : Bytes) : OnlyA 0 (indexInit input) where
  finds := by
    have hnone : lexiconFindExisting lexiconInit wordA = none := by
      rw [lexiconFindExisting, lexiconLookup, lookupFrom]
      rfl
    rw [indexInit, lexiconFindOrAdd, hnone]
    rfl
  lexicon h := nomatch h
  records := ⟨[], rfl, rfl, nofun⟩

lemma OnlyA.addWord {k : ℕ} (h : OnlyA k index) (lineNo : UInt32) (start : ℕ) :
    OnlyA (k + 1) (processWord lineNo index (start, wordA)) := by
  obtain ⟨rs, hrs, hk, hid⟩ := h.records
  have hlexicon : (processWord lineNo index (start, wordA)).lexicon = lexiconA := by
    simp only [processWord, h.finds]
  refine ⟨hlexicon ▸ findOrAdd_lexiconA, fun _ => hlexicon,
    rs ++ [⟨0, lineNo, UInt32.ofNat start⟩], ?_, ?_, ?_⟩
  · simp only [processWord, h.finds, Function.update_self]
    rw [hrs, List.flatMap_append, List.flatMap_singleton]
  · rw [List.length_append, hk, List.length_singleton]
  · intro r hr
    rcases List.mem_append.mp hr with hmem | hmem
    · exact hid r hmem
    · rw [List.mem_singleton.mp hmem]

lemma wordsFrom_lineA : wordsFrom 0 [97, 32, 97] = [(0, wordA), (2, wordA)] := by
  have h : wordsFrom 0 [97, 32, 97] = (0, wordA) :: wordsFrom 1 [32, 97] :=
    wordsFrom_cons (c := 97) (t := [32, 97]) rfl
  have h' : wordsFrom 1 [32, 97] = (2, wordA) :: wordsFrom 3 [] :=
    wordsFrom_cons (c := 97) (t := []) rfl
  rw [h, h', wordsFrom_nil rfl]

lemma OnlyA.addLine {k : ℕ} {build : Index × UInt64} (h : OnlyA k build.1) :
    OnlyA (k + 2) (buildLine build ([97, 32, 97], true)).1 := by
  have hcounted : OnlyA k { build.1 with lineCount := build.1.lineCount + 1 } :=
    ⟨h.finds, h.lexicon, h.records⟩
  have hline := (hcounted.addWord (build.1.lineCount + 1) 0).addWord (build.1.lineCount + 1) 2
  have heq : processLine { build.1 with lineCount := build.1.lineCount + 1 } [97, 32, 97]
      (build.1.lineCount + 1) = processWord (build.1.lineCount + 1)
        (processWord (build.1.lineCount + 1)
          { build.1 with lineCount := build.1.lineCount + 1 } (0, wordA)) (2, wordA) := by
    rw [processLine, wordsFrom_lineA]
    rfl
  rw [← heq] at hline
  exact ⟨hline.finds, hline.lexicon, hline.records⟩

lemma linesOf_repeatedLines (n : ℕ) :
    linesOf (repeatedLines n) = List.replicate n ([97, 32, 97], true) := by
  induction n with
  | zero =>
    rw [repeatedLines, List.replicate_zero, List.flatten_nil, linesOf]
    rfl
  | succ n ih =>
    have hsplit : repeatedLines (n + 1) = [97, 32, 97] ++ newline :: repeatedLines n := rfl
    rw [hsplit, linesOf_newline (by decide), ih]
    rfl

lemma indexBuild_onlyA (n : ℕ) : OnlyA (2 * n) (indexBuild (repeatedLines n)) := by
  rw [indexBuild, linesOf_repeatedLines]
  have hfold : ∀ (k : ℕ) (build : Index × UInt64), OnlyA k build.1 →
      OnlyA (k + 2 * n)
        ((List.replicate n (([97, 32, 97], true) : Bytes × Bool)).foldl buildLine build).1 := by
    induction n with
    | zero => exact fun k build h => h
    | succ n ih =>
      intro k build h
      have hnext := ih (k + 2) _ h.addLine
      have hk : k + 2 + 2 * n = k + 2 * (n + 1) := by omega
      rwa [hk] at hnext
  have hall := hfold 0 (indexInit (repeatedLines n), 0) (indexInit_onlyA _)
  rwa [Nat.zero_add] at hall

lemma OnlyA.length_wordRecords {k : ℕ} (h : OnlyA k index) :
    (wordRecords index 0 bucketA).length = k := by
  obtain ⟨rs, hrs, hk, hid⟩ := h.records
  have hall : rs.filter (fun r => r.wordId == 0) = rs := by
    rw [List.filter_eq_self]
    intro r hr
    rw [hid r hr]
    rfl
  rw [wordRecords, hrs, itemsOf_records, hall, hk]

lemma output_ends {p : ℕ → Option Path} (m : Emit α) (h : s.cachePath = p) :
    Ends (output m) (fun _ s' => s'.cachePath = p) (fun _ s' => s'.cachePath = p) s := by
  rw [Ends, output]
  cases m s.out with
  | ok a out => exact h
  | error e out => exact h

lemma openCache_ends (h : s.cachePath word.1.toNat ≠ none) (E : Unit → Session → Prop) :
    Ends (openCache word.1) (fun _ s' => s' = s) E s := by
  obtain ⟨path, hpath⟩ := Option.ne_none_iff_exists'.mp h
  rw [openCache]
  simp only [ends_bind, ends_get, hpath, ends_pure]

lemma handleSingle_caches {query : Bytes} (h : CacheSound s) (hne : query ≠ [])
    (hfind : lexiconFindExisting s.index.lexicon query = some word) :
    Ends (handleSingle query) (fun _ s' => s'.cachePath word.1.toNat ≠ none)
      (fun _ s' => s'.cachePath word.1.toNat ≠ none) s := by
  have hread : findExisting query s = .ok (some word) s := by
    rw [← hfind]
    rfl
  rw [handleSingle, if_neg hne, ends_bind]
  refine ends_of_ok hread ?_
  change Ends (ensureWordCache word.1 word.2 >>= _) _ _ s
  rw [ends_bind]
  refine (ensureWordCache_ends h (lexiconFindExisting_known h.index hfind) _).imp ?_
  intro _ s₁ hs₁
  rw [ends_bind]
  refine (openCache_ends hs₁.2 _).imp ?_
  rintro file _ rfl
  rw [ends_bind]
  refine (output_ends _ rfl).mono (fun _ s₂ hs₂ => ?_) (fun _ s₂ hs₂ => hs₂ ▸ hs₁.2)
  refine (output_ends _ rfl).mono (fun _ s₃ hs₃ => ?_) (fun _ s₃ hs₃ => ?_)
  · exact hs₃ ▸ hs₂ ▸ hs₁.2
  · exact hs₃ ▸ hs₂ ▸ hs₁.2

lemma afterQuery_wordA {n : ℕ} (hn : 0 < n) :
    (afterQueries (repeatedLines n) [wordA]).cachePath 0 ≠ none := by
  have hindex := indexBuild_onlyA n
  have hlexicon : (indexBuild (repeatedLines n)).lexicon = lexiconA := by
    apply hindex.lexicon
    omega
  let s : Session := { freshSession (repeatedLines n) with lineBuf := [], out := [] }
  have hs : CacheSound s := ⟨indexBuild_sound _, nofun, nofun⟩
  have hfind : lexiconFindExisting s.index.lexicon wordA = some (0, bucketA) := by
    rw [← find_lexiconA, ← hlexicon]
    rfl
  have hwords : wordsFrom 0 wordA = [(0, wordA)] := by
    have h : wordsFrom 0 wordA = (0, wordA) :: wordsFrom 1 [] :=
      wordsFrom_cons (c := 97) (t := []) rfl
    rw [h, wordsFrom_nil rfl]
  have hquery : handleQuery wordA = modify queryScratchReset >>= fun _ => handleSingle wordA := by
    rw [handleQuery, hwords]
    rfl
  have hends : Ends (handleQuery wordA) (fun _ s' => s'.cachePath 0 ≠ none)
      (fun _ s' => s'.cachePath 0 ≠ none) { freshSession (repeatedLines n) with out := [] } := by
    rw [hquery, ends_bind, ends_modify]
    have hne : wordA ≠ [] := by decide
    exact handleSingle_caches hs hne hfind
  change (answer wordA (freshSession (repeatedLines n))).2.cachePath 0 ≠ none
  rw [answer]
  cases hrun : handleQuery wordA { freshSession (repeatedLines n) with out := [] } with
  | ok _ s' => exact hends.ok hrun
  | error _ s' => exact hends.error hrun

/-- The word `a` occurs `2 ^ 32` times in the text, and its count is `0`. -/
theorem cache_count_wraps :
    ∃ entry path, (indexBuild (repeatedLines (2 ^ 31))).lexicon.entries[0]? = some entry ∧
      (afterQueries (repeatedLines (2 ^ 31)) [wordA]).cachePath 0 = some path ∧
      (wordRecords (indexBuild (repeatedLines (2 ^ 31))) entry.id entry.bucket).length = 2 ^ 32 ∧
      (afterQueries (repeatedLines (2 ^ 31)) [wordA]).cacheCount 0 = 0 := by
  have hpos : 0 < 2 ^ 31 := Nat.pow_pos (by decide)
  have hwraps : UInt32.ofNat (2 * 2 ^ 31) = 0 := by decide
  generalize hn : 2 ^ 31 = n at hpos hwraps ⊢
  have hindex := indexBuild_onlyA n
  have hlength := hindex.length_wordRecords
  have hlexicon : (indexBuild (repeatedLines n)).lexicon = lexiconA := by
    apply hindex.lexicon
    omega
  obtain ⟨path, hpath⟩ := Option.ne_none_iff_exists'.mp (afterQuery_wordA hpos)
  obtain ⟨hsound, hfinal⟩ := afterQueries_sound (repeatedLines n) [wordA]
  obtain ⟨entry, hentry, -, hcount⟩ := hsound.holds 0 path hpath
  rw [hfinal] at hentry hcount
  have hid : entry.id = 0 ∧ entry.bucket = bucketA := by
    rw [hlexicon] at hentry
    cases hentry
    exact ⟨rfl, rfl⟩
  rw [hid.1, hid.2, hlength, hwraps] at hcount
  refine ⟨entry, path, hentry, hpath, ?_, hcount⟩
  rw [hid.1, hid.2, hlength, ← hn]
  decide

end SystemsLab.Search
