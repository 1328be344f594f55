import SystemsLab.Search.History
import SystemsLab.Search.Postings
import Mathlib.Algebra.Order.BigOperators.Group.List
import Mathlib.Data.List.Perm.Subperm
import Mathlib.Data.Nat.Digits.Defs

namespace SystemsLab.Search

open CLib Effects

def decimal (n : ℕ) : Bytes :=
  if n = 0 then [48] else ((Nat.digits 10 n).map fun d => UInt8.ofNat (48 + d)).reverse

lemma digitsOf_eq (n : ℕ) : digitsOf n = (Nat.digits 10 n).map fun d => UInt8.ofNat (48 + d) := by
  fun_induction digitsOf n with
  | case1 => rfl
  | case2 n hn ih =>
    rw [Nat.digits_def' (by decide) (Nat.pos_of_ne_zero hn), List.map_cons, ih]

lemma writeU32_eq (value : UInt32) : writeU32 value = decimal value.toNat := by
  have h0 : value = 0 ↔ value.toNat = 0 := by rw [← UInt32.toNat_inj]; rfl
  rw [writeU32, decimal, digitsOf_eq]
  simp only [h0]

def lineRef (p : ℕ × ℕ) : Bytes := decimal p.1 ++ ascii ":" ++ decimal p.2 ++ ascii " "

def textWords (input : Bytes) : List Bytes :=
  (cutLines input).flatMap fun line => (wordsFrom 0 line).map fun p => lowerBytes p.2

structure Indexable (input : Bytes) : Prop where
  lines : (cutLines input).length < 2 ^ 32
  line : ∀ line ∈ cutLines input, line.length < 2 ^ 32
  words : (textWords input).eraseDups.length < 2 ^ 32 - 1

structure Spellable (input : Bytes) : Prop where
  lines : (cutLines input).length < 2 ^ 32
  word : ∀ word ∈ textWords input, word.length < 2 ^ 32
  words : (textWords input).eraseDups.length < 2 ^ 32 - 1

variable {input data : Bytes} {t : Token} {tokens : List Token} {index : Index} {s : Session}
  {word : UInt32 × UInt32}

lemma textWords_eq (input : Bytes) :
    (textTokens input).map (fun t => lowerBytes t.word) = textWords input := by
  have hnumbered : (numbered (cutLines input)).map Prod.fst = cutLines input := by
    apply List.ext_getElem?
    intro i
    simp [numbered, Option.map_map, Function.comp_def]
  rw [textTokens, tokensOf, List.map_flatMap]
  simp only [List.map_map]
  rw [textWords]
  conv_rhs => rw [← hnumbered, List.flatMap_map]
  rfl

lemma Indexable.spellable (h : Indexable input) : Spellable input where
  lines := h.lines
  word w hw := by
    rw [← textWords_eq] at hw
    obtain ⟨t, ht, rfl⟩ := List.mem_map.mp hw
    obtain ⟨i, line, hline, -, hword⟩ := mem_textTokens.mp ht
    have hle := hword.stop_le
    have hlt := h.line line (List.mem_of_getElem? hline)
    rw [length_lowerBytes]
    omega
  words := h.words

lemma Spellable.vocabulary_length (h : Spellable input) :
    (vocabulary (textTokens input)).length < 2 ^ 32 - 1 := by
  rw [vocabulary, textWords_eq]
  exact h.words

lemma Spellable.posts (h : Spellable input) : (indexBuild input).Posts (textTokens input) := by
  refine indexBuild_posts (fun t ht => ?_) h.vocabulary_length
  have hmem : lowerBytes t.word ∈ textWords input := by
    rw [← textWords_eq]
    exact List.mem_map_of_mem ht
  have hlt := h.word _ hmem
  rwa [length_lowerBytes] at hlt

lemma rawLine_ne_nil {text : Bytes} {line : Bytes × Bool} (h : line ∈ linesOf text) :
    rawLine line ≠ [] := by
  induction hn : text.length using Nat.strong_induction_on generalizing text with
  | h n ih =>
    cases hd : text.dropWhile (· ≠ newline) with
    | nil =>
      rw [linesOf_end hd] at h
      split_ifs at h with hs
      · cases h
      · rw [List.mem_singleton.mp h, rawLine]
        simpa using hs
    | cons c tail =>
      have hle := List.length_dropWhile_le (· ≠ newline) text
      rw [hd, List.length_cons] at hle
      rw [linesOf_cut hd, List.mem_cons] at h
      rcases h with rfl | h
      · simp [rawLine]
      · exact ih tail.length (by omega) h rfl

lemma length_eraseDups_le (words : List Bytes) : words.eraseDups.length ≤ words.length := by
  induction words using List.reverseRecOn with
  | nil => exact le_rfl
  | append_singleton words word ih =>
    rw [eraseDups_concat, note, List.length_append, List.length_singleton]
    split_ifs
    · omega
    · rw [List.length_append, List.length_singleton]
      omega

lemma length_wordsFrom_le (line : Bytes) : (wordsFrom 0 line).length ≤ line.length := by
  have hnodup := (wordsFrom_sorted 0 line).1.imp (fun hlt => Nat.ne_of_lt hlt)
  have hsub : (wordsFrom 0 line).map Prod.fst ⊆ List.range line.length := by
    intro start hstart
    obtain ⟨⟨start, word⟩, hmem, rfl⟩ := List.mem_map.mp hstart
    have hword := mem_wordsFrom.mp hmem
    have hpos := hword.pos
    have hle := hword.stop_le
    exact List.mem_range.mpr (by omega)
  have hle := (List.subperm_of_subset hnodup hsub).length_le
  rwa [List.length_map, List.length_range] at hle

lemma indexable_of_length (h : input.length < 2 ^ 32 - 1) : Indexable input := by
  have hall : ((linesOf input).map fun line => (rawLine line).length).sum = input.length := by
    rw [← List.length_flatMap, flatMap_rawLine]
  have hraw : ∀ line ∈ linesOf input, line.1.length ≤ (rawLine line).length := by
    intro line _
    rw [rawLine, List.length_append]
    exact Nat.le_add_right _ _
  refine ⟨?_, fun line hline => ?_, ?_⟩
  · have hle : ((linesOf input).map fun _ => 1).sum ≤
        ((linesOf input).map fun line => (rawLine line).length).sum :=
      List.sum_le_sum fun line hline => List.length_pos_iff.mpr (rawLine_ne_nil hline)
    have hle : (linesOf input).length ≤ input.length := by simpa [hall] using hle
    rw [← map_fst_linesOf, List.length_map]
    omega
  · rw [← map_fst_linesOf] at hline
    obtain ⟨line, hmem, rfl⟩ := List.mem_map.mp hline
    have hle := List.single_le_sum (fun _ _ => Nat.zero_le _) _
      (List.mem_map_of_mem (f := fun line => (rawLine line).length) hmem)
    have hle' := hraw line hmem
    omega
  · refine (length_eraseDups_le _).trans_lt ?_
    have hwords : (textWords input).length ≤ input.length := by
      rw [textWords, List.length_flatMap, ← map_fst_linesOf, List.map_map, ← hall]
      refine List.sum_le_sum fun line hline => ?_
      simp only [Function.comp_apply, List.length_map]
      exact (length_wordsFrom_le line.1).trans (hraw line hline)
    omega

def wordTokens (tokens : List Token) (word : Bytes) : List Token :=
  tokens.filter fun t => lowerBytes t.word == lowerBytes word

def tokenRecord (wordId : UInt32) (t : Token) : OccRecord :=
  ⟨wordId, t.lineNo, UInt32.ofNat t.start⟩

lemma Index.Posts.findExisting (h : index.Posts tokens)
    (hcount : (vocabulary tokens).length < 2 ^ 32) (data : Bytes) :
    (lexiconFindExisting index.lexicon data = none ∧ wordTokens tokens data = []) ∨
      ∃ word, lexiconFindExisting index.lexicon data = some word ∧
        wordRecords index word.1 word.2 = (wordTokens tokens data).map (tokenRecord word.1) := by
  rw [h.lexicon.findExisting]
  cases hfind : locate (vocabulary tokens) (lowerBytes data) with
  | some word => exact Or.inr ⟨word, rfl, h.wordRecords_eq hcount hfind⟩
  | none =>
    refine Or.inl ⟨rfl, ?_⟩
    rw [wordTokens, List.filter_eq_nil_iff]
    intro t ht heq
    have hsome := locate_isSome.mpr (mem_vocabulary.mpr ⟨t, ht, beq_iff_eq.mp heq⟩)
    rw [hfind] at hsome
    exact Bool.false_ne_true hsome

def lineAt (input : Bytes) (n : ℕ) : Option Bytes := if n = 0 then none else (cutLines input)[n - 1]?

def WordAt (input word : Bytes) (p : ℕ × ℕ) : Prop :=
  ∃ line, lineAt input p.1 = some line ∧
    ∃ token, IsWordAt line p.2 token ∧ lowerBytes token = lowerBytes word

lemma lineAt_succ (input : Bytes) (i : ℕ) : lineAt input (i + 1) = (cutLines input)[i]? := by
  rw [lineAt, if_neg (Nat.succ_ne_zero i), Nat.add_sub_cancel]

lemma exists_lineAt {n : ℕ} {line : Bytes} (h : lineAt input n = some line) :
    ∃ i, n = i + 1 ∧ (cutLines input)[i]? = some line := by
  cases n with
  | zero => cases h
  | succ i => exact ⟨i, rfl, lineAt_succ input i ▸ h⟩

lemma toNat_lineNo (hcount : (cutLines input).length < 2 ^ 32) {i : ℕ} {line : Bytes}
    (hline : (cutLines input)[i]? = some line) : (UInt32.ofNat (i + 1)).toNat = i + 1 := by
  have hlt := (List.getElem?_eq_some_iff.mp hline).1
  rw [UInt32.toNat_ofNat', Nat.mod_eq_of_lt (by omega)]

lemma mem_wordTokens {word : Bytes} :
    t ∈ wordTokens (textTokens input) word ↔
      t ∈ textTokens input ∧ lowerBytes t.word = lowerBytes word := by
  rw [wordTokens, List.mem_filter, beq_iff_eq]

lemma mem_places (hcount : (cutLines input).length < 2 ^ 32) {word : Bytes} {p : ℕ × ℕ} :
    p ∈ (wordTokens (textTokens input) word).map Token.place ↔ WordAt input word p := by
  simp only [List.mem_map, mem_wordTokens, mem_textTokens]
  constructor
  · rintro ⟨t, ⟨⟨i, line, hline, hno, hword⟩, hcase⟩, rfl⟩
    have hnat := toNat_lineNo hcount hline
    refine ⟨line, ?_, t.word, hword, hcase⟩
    rw [Token.place, hno, hnat, lineAt_succ]
    exact hline
  · rintro ⟨line, hline, token, hword, hcase⟩
    obtain ⟨i, hi, hline⟩ := exists_lineAt hline
    refine ⟨⟨UInt32.ofNat (i + 1), p.2, token⟩, ⟨⟨i, line, hline, rfl, hword⟩, hcase⟩, ?_⟩
    rw [Token.place, toNat_lineNo hcount hline, ← hi]

lemma places_sorted (hcount : (cutLines input).length < 2 ^ 32) (word : Bytes) :
    ((wordTokens (textTokens input) word).map Token.place).Pairwise PlaceLT :=
  (textTokens_sorted hcount).sublist (List.filter_sublist.map Token.place)

lemma toNat_start (h : Indexable input) (ht : t ∈ textTokens input) :
    (UInt32.ofNat t.start).toNat = t.start := by
  obtain ⟨i, line, hline, -, hword⟩ := mem_textTokens.mp ht
  have hpos := hword.pos
  have hle := hword.stop_le
  have hlt := h.line line (List.mem_of_getElem? hline)
  rw [UInt32.toNat_ofNat', Nat.mod_eq_of_lt (by omega)]

section Session

@[simp] lemma ends_output {α : Type} {m : Emit α} {Q : α → Session → Prop}
    {E : Unit → Session → Prop} :
    Ends (output m) Q E s ↔
      Ends m (fun a out => Q a { s with out := out }) (fun e out => E e { s with out := out })
        s.out := by
  rw [Ends, Ends, output]
  cases m s.out with
  | ok a out => exact Iff.rfl
  | error e out => exact Iff.rfl

@[simp] lemma ends_emit {Q : Unit → Bytes → Prop} {E : Unit → Bytes → Prop} {out : Bytes} :
    Ends (emit data) Q E out ↔ Q () (out ++ data) := Iff.rfl

@[simp] lemma ends_findExisting {Q : Option (UInt32 × UInt32) → Session → Prop}
    {E : Unit → Session → Prop} :
    Ends (findExisting data) Q E s ↔ Q (lexiconFindExisting s.index.lexicon data) s := Iff.rfl

lemma openCache_file (h : CacheSound s) (hword : Known s.index word)
    (hcached : s.cachePath word.1.toNat ≠ none) (E : Unit → Session → Prop) :
    Ends (openCache word.1)
      (fun file s' => s' = s ∧
        file = (wordRecords s.index word.1 word.2).flatMap OccRecord.bytes) E s := by
  obtain ⟨path, hpath⟩ := Option.ne_none_iff_exists'.mp hcached
  rw [openCache]
  simp only [ends_bind, ends_get, hpath, ends_pure, true_and]
  exact (h.cached hword hpath).1

lemma openWord_ends (h : CacheSound s) (hword : Known s.index word) (E : Unit → Session → Prop) :
    Ends (ensureWordCache word.1 word.2) (fun _ => Ends (openCache word.1)
      (fun file s' => Grows s s' ∧
        file = (wordRecords s.index word.1 word.2).flatMap OccRecord.bytes) E) E s := by
  refine (ensureWordCache_ends h hword E).imp fun _ s₁ hs₁ => ?_
  obtain ⟨hgrows, hcached⟩ := hs₁
  refine (openCache_file hgrows.sound (hgrows.index ▸ hword) hcached E).imp ?_
  rintro file s₂ ⟨rfl, rfl⟩
  exact ⟨hgrows, by rw [hgrows.index]⟩

end Session

lemma answer_eq {history : List Bytes} {query out : Bytes}
    (h : ∀ s, CacheSound s → s.index = indexBuild input → s.out = [] →
      Ends (handleQuery query) (fun _ s' => s'.out = out) (fun _ _ => False) s) :
    (answer query (afterQueries input history)).1 = (true, out) := by
  obtain ⟨hsound, hindex⟩ := afterQueries_sound input history
  have hclear : CacheSound { afterQueries input history with out := [] } :=
    ⟨hsound.index, hsound.path_lt, hsound.holds⟩
  obtain ⟨_, s', hok, hout⟩ := (h _ hclear hindex rfl).exists_ok
  rw [answer, hok]
  exact congrArg (Prod.mk true) hout

end SystemsLab.Search
