import SystemsLab.Search.Query
import SystemsLab.Search.Scan

namespace SystemsLab.Search

open CLib Effects

def wordRecords (index : Index) (wordId bucket : UInt32) : List OccRecord :=
  (itemsOf occRecordSize OccRecord.ofBytes (index.occFiles bucket.toNat)).filter
    fun r => r.wordId == wordId

lemma foldlM_cacheRecordConsumer (rs : List OccRecord) (writer : CacheWriter) :
    rs.foldlM cacheRecordConsumer writer =
      .ok ⟨writer.out ++ rs.flatMap OccRecord.bytes,
        writer.count + UInt32.ofNat rs.length⟩ := by
  induction rs generalizing writer with
  | nil =>
    rw [List.flatMap_nil, List.append_nil, List.length_nil]
    have h0 : writer.count + UInt32.ofNat 0 = writer.count := UInt32.add_zero _
    rw [h0]
    rfl
  | cons r rs ih =>
    have hcount : writer.count + 1 + UInt32.ofNat rs.length =
        writer.count + UInt32.ofNat (rs.length + 1) := by
      rw [UInt32.ofNat_add, UInt32.add_comm (UInt32.ofNat rs.length), UInt32.add_assoc]
      rfl
    change rs.foldlM cacheRecordConsumer ⟨writer.out ++ r.bytes, writer.count + 1⟩ = _
    rw [ih, List.flatMap_cons, List.append_assoc, List.length_cons, hcount]

lemma cacheOf_eq {index : Index} (h : index.Sound) (wordId bucket : UInt32) :
    cacheOf index wordId bucket =
      .ok ⟨(wordRecords index wordId bucket).flatMap OccRecord.bytes,
        UInt32.ofNat (wordRecords index wordId bucket).length⟩ := by
  obtain ⟨rs, hrs⟩ := h.records bucket.toNat
  have hrecords : wordRecords index wordId bucket = rs.filter fun r => r.wordId == wordId := by
    rw [wordRecords, hrs, itemsOf_records]
  rw [cacheOf, hrs, scanFile_records, foldlM_cacheRecordConsumer, hrecords, List.nil_append,
    UInt32.zero_add]

structure CacheSound (s : Session) : Prop where
  index : s.index.Sound
  path_lt : ∀ (i : ℕ) (path : Path), s.cachePath i = some path → path < s.nextPath
  holds : ∀ (i : ℕ) (path : Path), s.cachePath i = some path →
    ∃ entry, s.index.lexicon.entries[i]? = some entry ∧
      s.files path = (wordRecords s.index entry.id entry.bucket).flatMap OccRecord.bytes ∧
      s.cacheCount i = UInt32.ofNat (wordRecords s.index entry.id entry.bucket).length

def Known (index : Index) (word : UInt32 × UInt32) : Prop :=
  ∃ entry, index.lexicon.entries[word.1.toNat]? = some entry ∧ entry.id = word.1 ∧
    entry.bucket = word.2

variable {index : Index} {s t : Session} {word : UInt32 × UInt32} {path : Path}

lemma freshSession_sound (input : Bytes) : CacheSound (freshSession input) where
  index := indexBuild_sound input
  path_lt _ _ h := nomatch h
  holds _ _ h := nomatch h

lemma CacheSound.cached (h : CacheSound s) (hword : Known s.index word)
    (hpath : s.cachePath word.1.toNat = some path) :
    s.files path = (wordRecords s.index word.1 word.2).flatMap OccRecord.bytes ∧
      s.cacheCount word.1.toNat = UInt32.ofNat (wordRecords s.index word.1 word.2).length := by
  obtain ⟨entry, hentry, hid, hbucket⟩ := hword
  obtain ⟨entry', hentry', hfile⟩ := h.holds _ _ hpath
  rw [hentry] at hentry'
  obtain rfl := Option.some.inj hentry'
  rw [hid, hbucket] at hfile
  exact hfile

structure Grows (s s' : Session) : Prop where
  sound : CacheSound s'
  index : s'.index = s.index
  lineBuf : s'.lineBuf = s.lineBuf
  out : s'.out = s.out
  keeps : ∀ i, s.cachePath i ≠ none → s'.cachePath i ≠ none

lemma Grows.refl (h : CacheSound s) : Grows s s := ⟨h, rfl, rfl, rfl, fun _ h => h⟩

def addCache (s : Session) (word : UInt32 × UInt32) (writer : CacheWriter) : Session :=
  { s with
    nextPath := s.nextPath + 1
    occOffsets := Function.update s.occOffsets word.2.toNat (s.index.occFiles word.2.toNat).length
    files := Function.update s.files s.nextPath writer.out
    cachePath := Function.update s.cachePath word.1.toNat (some s.nextPath)
    cacheCount := Function.update s.cacheCount word.1.toNat writer.count }

lemma CacheSound.addCache (h : CacheSound s) (hword : Known s.index word) {writer : CacheWriter}
    (hwriter : cacheOf s.index word.1 word.2 = .ok writer) : CacheSound (addCache s word writer) := by
  rw [cacheOf_eq h.index, Except.ok.injEq] at hwriter
  subst hwriter
  refine ⟨h.index, fun i path hpath => ?_, fun i path hpath => ?_⟩
  · simp only [Search.addCache] at hpath ⊢
    by_cases hi : i = word.1.toNat
    · rw [hi, Function.update_self, Option.some.injEq] at hpath
      rw [← hpath]
      exact Nat.lt_succ_self _
    · rw [Function.update_of_ne hi] at hpath
      exact (h.path_lt i path hpath).trans (Nat.lt_succ_self _)
  · simp only [Search.addCache] at hpath ⊢
    by_cases hi : i = word.1.toNat
    · obtain ⟨entry, hentry, hid, hbucket⟩ := hword
      rw [hi, Function.update_self, Option.some.injEq] at hpath
      refine ⟨entry, hi ▸ hentry, ?_, ?_⟩
      · rw [← hpath, Function.update_self, hid, hbucket]
      · rw [hi, Function.update_self, hid, hbucket]
    · rw [Function.update_of_ne hi] at hpath ⊢
      -- the new file has a path of its own
      have hne : path ≠ s.nextPath := (h.path_lt i path hpath).ne
      rw [Function.update_of_ne hne]
      exact h.holds i path hpath

lemma ensureWordCache_ends (h : CacheSound s) (hword : Known s.index word)
    (E : Unit → Session → Prop) :
    Ends (ensureWordCache word.1 word.2)
      (fun _ s' => Grows s s' ∧ s'.cachePath word.1.toNat ≠ none) E s := by
  rw [ensureWordCache]
  simp only [ends_bind, ends_get, ends_ite, ends_modify, ends_pure]
  refine ⟨fun hnone => ?_, fun hsome => ⟨Grows.refl h, hsome⟩⟩
  rw [cacheOf_eq h.index]
  simp only [ends_modify]
  have hsound := h.addCache hword (cacheOf_eq h.index word.1 word.2)
  refine ⟨⟨hsound, rfl, rfl, rfl, fun i hi => ?_⟩, ?_⟩
  · change Function.update s.cachePath word.1.toNat (some s.nextPath) i ≠ none
    by_cases hi' : i = word.1.toNat
    · rw [hi', Function.update_self]
      rintro ⟨⟩
    · rwa [Function.update_of_ne hi']
  · rw [Function.update_self]
    rintro ⟨⟩

lemma lexiconFindExisting_known (h : index.Sound) {data : Bytes}
    (hfind : lexiconFindExisting index.lexicon data = some word) : Known index word :=
  lexiconFindExisting_spec h.lexicon hfind

end SystemsLab.Search
