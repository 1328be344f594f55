import SystemsLab.Search.Lexicon
import SystemsLab.Tables.Chains
import Mathlib.Data.List.Induction
import Mathlib.Data.List.TakeWhile

namespace SystemsLab.Search

open CLib Tables

def lowerBytes (data : Bytes) : Bytes := data.map asciiLower

lemma toNat_asciiLower (c : UInt8) : (asciiLower c).toNat =
    if 65 ≤ c.toNat ∧ c.toNat ≤ 90 then c.toNat + 32 else c.toNat := by
  rw [asciiLower]
  split_ifs with h h' h'
  · have hlt : c.toNat + 32 < 2 ^ 8 := by omega
    rw [UInt8.toNat_add]
    exact Nat.mod_eq_of_lt hlt
  · exact (h' ⟨UInt8.le_iff_toNat_le.mp h.1, UInt8.le_iff_toNat_le.mp h.2⟩).elim
  · exact (h ⟨UInt8.le_iff_toNat_le.mpr h'.1, UInt8.le_iff_toNat_le.mpr h'.2⟩).elim
  · rfl

lemma asciiLower_asciiLower (c : UInt8) : asciiLower (asciiLower c) = asciiLower c := by
  rw [← UInt8.toNat_inj, toNat_asciiLower (asciiLower c), toNat_asciiLower]
  split_ifs <;> omega

lemma lowerBytes_lowerBytes (data : Bytes) : lowerBytes (lowerBytes data) = lowerBytes data := by
  rw [lowerBytes, lowerBytes, List.map_map]
  exact List.map_congr_left fun c _ => asciiLower_asciiLower c

lemma length_lowerBytes (data : Bytes) : (lowerBytes data).length = data.length := List.length_map _

lemma hashLowerBytes_lowerBytes (data : Bytes) :
    hashLowerBytes (lowerBytes data) = hashLowerBytes data := by
  rw [hashLowerBytes, hashLowerBytes, lowerBytes, List.foldl_map]
  simp only [asciiLower_asciiLower]

lemma caseEqualBytes_length {a b : Bytes} (h : a.length = b.length) :
    caseEqualBytes a b b.length = true ↔ lowerBytes a = lowerBytes b := by
  rw [caseEqualBytes, beq_iff_eq, ← h, List.take_length, h, List.take_length]
  exact Iff.rfl

def wordBucket (word : Bytes) : UInt32 := hashLowerBytes word % occBuckets

def wordEntry (i : ℕ) (word : Bytes) : LexEntry where
  text := word
  len := UInt32.ofNat word.length
  id := UInt32.ofNat i
  hash := hashLowerBytes word
  bucket := wordBucket word
  next := 0

def LexEntry.unchained (entry : LexEntry) : LexEntry := { entry with next := 0 }

def LexEntry.slot (slotCount : ℕ) (entry : LexEntry) : ℕ := entry.hash.toNat % slotCount

def LexEntry.nextNumber (entry : LexEntry) : ℕ := entry.next.toNat

structure Lexicon.Spells (lexicon : Lexicon) (words : List Bytes) : Prop where
  sound : lexicon.Sound
  slotCount_pos : 0 < lexicon.slotCount
  entries : lexicon.entries.map LexEntry.unchained = words.mapIdx wordEntry
  chained : Chained (LexEntry.slot lexicon.slotCount) LexEntry.nextNumber lexicon.entries
    fun k => (lexicon.slots k).toNat
  lower : ∀ word ∈ words, lowerBytes word = word
  short : ∀ word ∈ words, word.length < 2 ^ 32
  nodup : words.Nodup

variable {lexicon : Lexicon} {words : List Bytes} {data word : Bytes} {entry : LexEntry} {i : ℕ}

lemma lexiconInit_spells : lexiconInit.Spells [] where
  sound := lexiconInit_sound
  slotCount_pos := by decide
  entries := rfl
  chained := chained_nil
  lower := nofun
  short := nofun
  nodup := List.nodup_nil

namespace Lexicon.Spells

lemma length_eq (h : lexicon.Spells words) : lexicon.entries.length = words.length := by
  have hl := congrArg List.length h.entries
  rwa [List.length_map, List.length_mapIdx] at hl

lemma getElem?_entries (h : lexicon.Spells words) (i : ℕ) :
    lexicon.entries[i]?.map LexEntry.unchained = words[i]?.map (wordEntry i) := by
  rw [← List.getElem?_map, h.entries, List.getElem?_mapIdx]

lemma exists_word (h : lexicon.Spells words) (hentry : lexicon.entries[i]? = some entry) :
    ∃ word, words[i]? = some word ∧ entry.unchained = wordEntry i word := by
  have hi := h.getElem?_entries i
  rw [hentry, Option.map_some] at hi
  obtain ⟨word, hword, he⟩ := Option.map_eq_some_iff.mp hi.symm
  exact ⟨word, hword, he.symm⟩

lemma exists_entry (h : lexicon.Spells words) (hword : words[i]? = some word) :
    ∃ entry, lexicon.entries[i]? = some entry ∧ entry.unchained = wordEntry i word := by
  have hi := h.getElem?_entries i
  rw [hword, Option.map_some] at hi
  exact Option.map_eq_some_iff.mp hi

end Lexicon.Spells

lemma holds_iff (he : entry.unchained = wordEntry i word) (hshort : word.length < 2 ^ 32)
    (hlower : lowerBytes word = word) :
    entry.holds data (hashLowerBytes data) = true ↔ word = lowerBytes data := by
  have htext : entry.text = word := congrArg LexEntry.text he
  have hhash : entry.hash = hashLowerBytes word := congrArg LexEntry.hash he
  have hlen : entry.len.toNat = word.length := by
    have hl := congrArg LexEntry.len he
    change entry.len = UInt32.ofNat word.length at hl
    rw [hl, UInt32.toNat_ofNat_of_lt' hshort]
  rw [LexEntry.holds, htext, hhash, hlen, Bool.and_eq_true, Bool.and_eq_true, beq_iff_eq, beq_iff_eq]
  constructor
  · rintro ⟨⟨-, hl⟩, hcase⟩
    rw [caseEqualBytes_length hl, hlower] at hcase
    exact hcase
  · rintro rfl
    have hl : (lowerBytes data).length = data.length := length_lowerBytes data
    refine ⟨⟨hashLowerBytes_lowerBytes data, hl⟩, ?_⟩
    rw [caseEqualBytes_length hl, lowerBytes_lowerBytes]

lemma lookupFrom_chain (h : lexicon.Sound) {hash : UInt32} {chain : List ℕ} {n : ℕ}
    (hchain : Chain LexEntry.nextNumber lexicon.entries n chain) {index : UInt32}
    (hindex : index.toNat = n) :
    lookupFrom lexicon.entries data hash index =
      chain.find? fun i => lexicon.entries[i]?.any fun entry => entry.holds data hash := by
  induction hchain generalizing index with
  | nil =>
    have h0 : index = 0 := UInt32.toNat_inj.mp hindex
    rw [h0, lookupFrom, if_pos rfl, List.find?_nil]
  | @cons i entry chain hentry _ ih =>
    have hne : index ≠ 0 := by
      rintro rfl
      exact absurd hindex (Nat.succ_ne_zero i).symm
    have hi : index.toNat - 1 = i := by rw [hindex, Nat.add_sub_cancel]
    cases hno : entry.holds data hash with
    | true =>
      rw [lookupFrom, if_neg hne, hi, hentry, List.find?_cons_of_pos (by rw [hentry]; exact hno)]
      simp only [hno, if_true]
    | false =>
      rw [List.find?_cons_of_neg (by rw [hentry, Option.any_some, hno]; exact Bool.false_ne_true),
        lookupFrom_next h hne (hi ▸ hentry) hno]
      exact ih rfl

lemma find?_of_unique {p : ℕ → Bool} {l : List ℕ} (hi : i ∈ l) (hp : p i = true)
    (hone : ∀ j ∈ l, p j = true → j = i) : l.find? p = some i := by
  obtain ⟨j, hj⟩ := Option.isSome_iff_exists.mp (List.find?_isSome.mpr ⟨i, hi, hp⟩)
  rw [hj, hone j (List.mem_of_find?_eq_some hj) (List.find?_some hj)]

namespace Lexicon.Spells

lemma any_holds_iff (h : lexicon.Spells words) (i : ℕ) (data : Bytes) :
    (lexicon.entries[i]?.any fun entry => entry.holds data (hashLowerBytes data)) = true ↔
      words[i]? = some (lowerBytes data) := by
  cases hentry : lexicon.entries[i]? with
  | none =>
    have hlen := h.length_eq
    have hi := List.getElem?_eq_none_iff.mp hentry
    rw [List.getElem?_eq_none (hlen ▸ hi)]
    simp
  | some entry =>
    obtain ⟨word, hword, he⟩ := h.exists_word hentry
    have hmem := List.mem_of_getElem? hword
    rw [Option.any_some, holds_iff he (h.short word hmem) (h.lower word hmem), hword,
      Option.some.injEq]

lemma lookup_of_mem (h : lexicon.Spells words) (hmem : lowerBytes data ∈ words) :
    lexiconLookup lexicon data (hashLowerBytes data) = some (words.idxOf (lowerBytes data)) := by
  have hword : words[words.idxOf (lowerBytes data)]? = some (lowerBytes data) :=
    List.getElem?_idxOf hmem
  obtain ⟨entry, hentry, he⟩ := h.exists_entry hword
  have hhash : entry.hash = hashLowerBytes (lowerBytes data) := congrArg LexEntry.hash he
  rw [lexiconLookup, lookupFrom_chain h.sound (h.chained _) rfl]
  refine find?_of_unique ?_ ((h.any_holds_iff _ data).mpr hword) fun j _ hj => ?_
  · rw [mem_members]
    refine ⟨entry, hentry, ?_⟩
    rw [LexEntry.slot, hhash, hashLowerBytes_lowerBytes]
  · rw [h.any_holds_iff] at hj
    have hlt := (List.getElem?_eq_some_iff.mp hj).1
    exact (List.getElem?_inj hlt h.nodup).mp (hj.trans hword.symm)

lemma lookup_of_not_mem (h : lexicon.Spells words) (hmem : lowerBytes data ∉ words) :
    lexiconLookup lexicon data (hashLowerBytes data) = none := by
  rw [lexiconLookup, lookupFrom_chain h.sound (h.chained _) rfl, List.find?_eq_none]
  intro i _ hi
  rw [h.any_holds_iff] at hi
  exact hmem (List.mem_of_getElem? hi)

end Lexicon.Spells

def locate (words : List Bytes) (word : Bytes) : Option (UInt32 × UInt32) :=
  if word ∈ words then some (UInt32.ofNat (words.idxOf word), wordBucket word) else none

lemma Lexicon.Spells.findExisting (h : lexicon.Spells words) (data : Bytes) :
    lexiconFindExisting lexicon data = locate words (lowerBytes data) := by
  rw [lexiconFindExisting, locate]
  split_ifs with hmem
  · have hword : words[words.idxOf (lowerBytes data)]? = some (lowerBytes data) :=
      List.getElem?_idxOf hmem
    obtain ⟨entry, hentry, he⟩ := h.exists_entry hword
    have hid : entry.id = UInt32.ofNat (words.idxOf (lowerBytes data)) := congrArg LexEntry.id he
    have hbucket : entry.bucket = wordBucket (lowerBytes data) := congrArg LexEntry.bucket he
    rw [h.lookup_of_mem hmem, Option.bind_eq_bind, Option.bind_some, hentry, Option.bind_eq_bind,
      Option.bind_some, hid, hbucket]
  · rw [h.lookup_of_not_mem hmem]
    rfl

def note (words : List Bytes) (word : Bytes) : List Bytes :=
  if word ∈ words then words else words ++ [word]

lemma rehashFrom_unchained {nextSlots : ℕ} (entries : List LexEntry) (i : ℕ) (slots : ℕ → UInt32) :
    (rehashFrom nextSlots i entries slots).1.map LexEntry.unchained =
      entries.map LexEntry.unchained := by
  induction entries generalizing i slots with
  | nil => rfl
  | cons entry entries ih =>
    simp only [rehashFrom, List.map_cons, ih]
    rfl

lemma toNat_update (slots : ℕ → UInt32) (k n : ℕ) (hn : n < 2 ^ 32) :
    (fun j => (Function.update slots k (UInt32.ofNat n) j).toNat) =
      Function.update (fun j => (slots j).toNat) k n := by
  funext j
  by_cases hj : j = k
  · rw [hj, Function.update_self, Function.update_self, UInt32.toNat_ofNat_of_lt' hn]
  · rw [Function.update_of_ne hj, Function.update_of_ne hj]

lemma rehashFrom_chained {nextSlots : ℕ} (entries done : List LexEntry) (slots : ℕ → UInt32)
    (hlen : done.length + entries.length < 2 ^ 32)
    (h : Chained (LexEntry.slot nextSlots) LexEntry.nextNumber done fun k => (slots k).toNat) :
    Chained (LexEntry.slot nextSlots) LexEntry.nextNumber
      (done ++ (rehashFrom nextSlots done.length entries slots).1)
      fun k => ((rehashFrom nextSlots done.length entries slots).2 k).toNat := by
  induction entries generalizing done slots with
  | nil =>
    rw [rehashFrom, List.append_nil]
    exact h
  | cons entry entries ih =>
    rw [List.length_cons] at hlen
    have hdone : (done ++ [{ entry with next := slots (entry.slot nextSlots) }]).length =
        done.length + 1 := List.length_append
    have hpush := h.push { entry with next := slots (entry.slot nextSlots) } rfl
    have hnext := ih (done ++ [{ entry with next := slots (entry.slot nextSlots) }])
      (Function.update slots (entry.slot nextSlots) (UInt32.ofNat (done.length + 1)))
      (by rw [hdone]; omega) (by rw [toNat_update _ _ _ (by omega)]; exact hpush)
    rw [hdone, List.append_assoc] at hnext
    exact hnext

namespace Lexicon.Spells

lemma rehash (h : lexicon.Spells words) (hcount : words.length < 2 ^ 32) {nextSlots : ℕ}
    (hpos : 0 < nextSlots) : (lexiconRehash lexicon nextSlots).Spells words where
  sound := h.sound.rehash nextSlots
  slotCount_pos := hpos
  entries := (rehashFrom_unchained _ _ _).trans h.entries
  chained := by
    have hlen := h.length_eq
    exact rehashFrom_chained lexicon.entries [] (fun _ => 0)
      (by rw [List.length_nil, Nat.zero_add, hlen]; exact hcount) chained_nil
  lower := h.lower
  short := h.short
  nodup := h.nodup

lemma add (h : lexicon.Spells words) (hcount : words.length + 1 < 2 ^ 32)
    (hshort : data.length < 2 ^ 32) (hnew : lowerBytes data ∉ words) :
    (lexiconAdd lexicon data).1.Spells (words ++ [lowerBytes data]) ∧
      (lexiconAdd lexicon data).2 = (UInt32.ofNat words.length, wordBucket (lowerBytes data)) := by
  have hbucket : wordBucket (lowerBytes data) = hashLowerBytes data % occBuckets := by
    rw [wordBucket, hashLowerBytes_lowerBytes]
  refine ⟨⟨h.sound.add data, h.slotCount_pos, ?_, ?_, ?_, ?_, ?_⟩, ?_⟩
  · rw [List.mapIdx_concat, ← h.entries, ← h.length_eq]
    simp only [lexiconAdd, List.map_append, List.map_cons, List.map_nil, LexEntry.unchained,
      wordEntry, hbucket, hashLowerBytes_lowerBytes, length_lowerBytes]
    rfl
  · have hpush := h.chained.push
      (LexEntry.mk (data.map asciiLower) (UInt32.ofNat data.length)
        (UInt32.ofNat lexicon.entries.length) (hashLowerBytes data)
        (hashLowerBytes data % occBuckets)
        (lexicon.slots ((hashLowerBytes data).toNat % lexicon.slotCount))) rfl
    rw [← toNat_update _ _ _ (by rw [h.length_eq]; exact hcount)] at hpush
    exact hpush
  · intro word hword
    rcases List.mem_append.mp hword with hword | hword
    · exact h.lower word hword
    · rw [List.mem_singleton.mp hword, lowerBytes_lowerBytes]
  · intro word hword
    rcases List.mem_append.mp hword with hword | hword
    · exact h.short word hword
    · rw [List.mem_singleton.mp hword, length_lowerBytes]
      exact hshort
  · rw [← List.concat_eq_append]
    exact h.nodup.concat hnew
  · rw [hbucket, ← h.length_eq]
    rfl

lemma findOrAdd (h : lexicon.Spells words) (hshort : data.length < 2 ^ 32)
    (hcount : (note words (lowerBytes data)).length < 2 ^ 32 - 1) :
    (lexiconFindOrAdd lexicon data).1.Spells (note words (lowerBytes data)) ∧
      some (lexiconFindOrAdd lexicon data).2 =
        locate (note words (lowerBytes data)) (lowerBytes data) := by
  rw [lexiconFindOrAdd, h.findExisting]
  by_cases hmem : lowerBytes data ∈ words
  · have hnote : note words (lowerBytes data) = words := if_pos hmem
    rw [hnote, locate, if_pos hmem]
    exact ⟨h, rfl⟩
  · have hnote : note words (lowerBytes data) = words ++ [lowerBytes data] := if_neg hmem
    have hlocate : locate (words ++ [lowerBytes data]) (lowerBytes data) =
        some (UInt32.ofNat words.length, wordBucket (lowerBytes data)) := by
      rw [locate, if_pos (List.mem_append_right _ (List.mem_singleton_self _)),
        List.idxOf_append_of_notMem hmem, List.idxOf_cons_self, Nat.add_zero]
    rw [hnote, List.length_append, List.length_singleton] at hcount
    have hnone : locate words (lowerBytes data) = none := if_neg hmem
    rw [hnote, hlocate, hnone]
    simp only
    split_ifs
    · obtain ⟨hspells, hanswer⟩ := (h.rehash (by omega)
        (Nat.mul_pos h.slotCount_pos (by decide : 0 < 2))).add (by omega) hshort hmem
      exact ⟨hspells, congrArg some hanswer⟩
    · obtain ⟨hspells, hanswer⟩ := h.add (by omega) hshort hmem
      exact ⟨hspells, congrArg some hanswer⟩

end Lexicon.Spells

inductive LexiconCall
  | findOrAdd (data : Bytes)
  | findExisting (data : Bytes)

def LexiconCall.bytes : LexiconCall → Bytes
  | findOrAdd data => data
  | findExisting data => data

def lexiconCall (lexicon : Lexicon) : LexiconCall → Lexicon × Option (UInt32 × UInt32)
  | .findOrAdd data => ((lexiconFindOrAdd lexicon data).1, some (lexiconFindOrAdd lexicon data).2)
  | .findExisting data => (lexicon, lexiconFindExisting lexicon data)

def lexiconRun (lexicon : Lexicon) :
    List LexiconCall → Lexicon × List (Option (UInt32 × UInt32))
  | [] => (lexicon, [])
  | call :: calls =>
    let (lexicon, answer) := lexiconCall lexicon call
    let (lexicon, answers) := lexiconRun lexicon calls
    (lexicon, answer :: answers)

def addedWords (calls : List LexiconCall) : List Bytes :=
  calls.filterMap fun call =>
    match call with
    | .findOrAdd data => some (lowerBytes data)
    | .findExisting _ => none

def noteCall (words : List Bytes) : LexiconCall → List Bytes
  | .findOrAdd data => note words (lowerBytes data)
  | .findExisting _ => words

def noteCalls (words : List Bytes) (calls : List LexiconCall) : List Bytes :=
  calls.foldl noteCall words

variable {call : LexiconCall} {calls : List LexiconCall} {answer : UInt32 × UInt32}

lemma prefix_note (words : List Bytes) (word : Bytes) : words <+: note words word := by
  rw [note]
  split_ifs
  · exact List.prefix_rfl
  · exact List.prefix_append _ _

lemma prefix_noteCall (words : List Bytes) (call : LexiconCall) : words <+: noteCall words call := by
  cases call with
  | findOrAdd data => exact prefix_note words _
  | findExisting data => exact List.prefix_rfl

lemma prefix_noteCalls (words : List Bytes) (calls : List LexiconCall) :
    words <+: noteCalls words calls := by
  induction calls generalizing words with
  | nil => exact List.prefix_rfl
  | cons call calls ih => exact (prefix_noteCall words call).trans (ih _)

lemma eraseDups_append_singleton {α : Type} [BEq α] [LawfulBEq α] (l : List α) (a : α) :
    (l ++ [a]).eraseDups = if a ∈ l then l.eraseDups else l.eraseDups ++ [a] := by
  rw [List.eraseDups_append]
  split_ifs with hmem
  · simp [List.removeAll, hmem]
  · simp [List.removeAll, hmem, List.eraseDups_cons]

lemma eraseDups_concat (words : List Bytes) (word : Bytes) :
    (words ++ [word]).eraseDups = note words.eraseDups word := by
  rw [eraseDups_append_singleton, note]
  simp only [List.mem_eraseDups]

lemma noteCalls_eq (calls : List LexiconCall) : noteCalls [] calls = (addedWords calls).eraseDups := by
  induction calls using List.reverseRecOn with
  | nil => rfl
  | append_singleton calls call ih =>
    have hsplit : noteCalls [] (calls ++ [call]) = noteCall (noteCalls [] calls) call :=
      List.foldl_append
    have hadded : addedWords (calls ++ [call]) = addedWords calls ++ addedWords [call] :=
      List.filterMap_append
    rw [hsplit, hadded, ih]
    cases call with
    | findOrAdd data => exact (eraseDups_concat _ _).symm
    | findExisting data => exact congrArg List.eraseDups (List.append_nil _).symm

lemma lexiconCall_spells (h : lexicon.Spells words) (hshort : call.bytes.length < 2 ^ 32)
    (hcount : (noteCall words call).length < 2 ^ 32 - 1) :
    (lexiconCall lexicon call).1.Spells (noteCall words call) ∧
      (lexiconCall lexicon call).2 = locate (noteCall words call) (lowerBytes call.bytes) := by
  cases call with
  | findOrAdd data => exact h.findOrAdd hshort hcount
  | findExisting data => exact ⟨h, h.findExisting data⟩

lemma lexiconRun_spells (h : lexicon.Spells words)
    (hshort : ∀ call ∈ calls, call.bytes.length < 2 ^ 32)
    (hcount : (noteCalls words calls).length < 2 ^ 32 - 1) :
    (lexiconRun lexicon calls).1.Spells (noteCalls words calls) ∧
      ∀ i, (lexiconRun lexicon calls).2[i]? = calls[i]?.map fun call =>
        locate (noteCalls words (calls.take (i + 1))) (lowerBytes call.bytes) := by
  induction calls generalizing lexicon words with
  | nil => exact ⟨h, fun i => rfl⟩
  | cons call calls ih =>
    have hle := (prefix_noteCalls (noteCall words call) calls).length_le
    obtain ⟨hnext, hanswer⟩ := lexiconCall_spells h (hshort call List.mem_cons_self)
      (hle.trans_lt hcount)
    obtain ⟨hend, hanswers⟩ := ih hnext (fun c hc => hshort c (List.mem_cons_of_mem _ hc)) hcount
    refine ⟨hend, fun i => ?_⟩
    cases i with
    | zero => exact congrArg some hanswer
    | succ i => exact hanswers i

lemma locate_prefix {words' : List Bytes} (hpre : words <+: words')
    (h : locate words word = some answer) : locate words' word = some answer := by
  rw [locate] at h ⊢
  split_ifs at h with hmem
  obtain ⟨more, rfl⟩ := hpre
  rw [if_pos (List.mem_append_left _ hmem), List.idxOf_append_of_mem hmem]
  exact h

lemma locate_isSome : (locate words word).isSome ↔ word ∈ words := by
  rw [locate]
  split_ifs with hmem
  · simp [hmem]
  · simp [hmem]

lemma locate_inj {word' : Bytes} {answer' : UInt32 × UInt32} (hcount : words.length < 2 ^ 32)
    (h : locate words word = some answer) (h' : locate words word' = some answer') :
    (answer.1 = answer'.1 ↔ word = word') ∧ (word = word' → answer = answer') := by
  have hsame : word = word' → answer = answer' := by
    rintro rfl
    exact Option.some.inj (h.symm.trans h')
  refine ⟨⟨fun hid => ?_, fun heq => congrArg Prod.fst (hsame heq)⟩, hsame⟩
  rw [locate] at h h'
  split_ifs at h h' with hmem hmem'
  obtain rfl := Option.some.inj h
  obtain rfl := Option.some.inj h'
  have hidx := congrArg UInt32.toNat hid
  have hlt := List.idxOf_lt_length_of_mem hmem
  have hlt' := List.idxOf_lt_length_of_mem hmem'
  simp only [UInt32.toNat_ofNat'] at hidx
  rw [Nat.mod_eq_of_lt (by omega), Nat.mod_eq_of_lt (by omega)] at hidx
  exact (List.idxOf_inj hmem).mp hidx

lemma mem_noteCalls_take {i : ℕ} (hcall : calls[i]? = some call) :
    word ∈ noteCalls [] (calls.take (i + 1)) ↔
      (∃ j < i, ∃ data, calls[j]? = some (.findOrAdd data) ∧ lowerBytes data = word) ∨
        ∃ data, call = .findOrAdd data ∧ lowerBytes data = word := by
  rw [noteCalls_eq, List.mem_eraseDups, addedWords, List.mem_filterMap]
  constructor
  · rintro ⟨c, hc, hword⟩
    cases c with
    | findExisting data => cases hword
    | findOrAdd data =>
      obtain ⟨j, hj⟩ := List.mem_iff_getElem?.mp hc
      have hlt : j < i + 1 := by
        by_contra hge
        rw [List.getElem?_take_eq_none (by omega)] at hj
        cases hj
      rw [List.getElem?_take_of_lt hlt] at hj
      rcases Nat.lt_succ_iff_lt_or_eq.mp hlt with hlt | rfl
      · exact Or.inl ⟨j, hlt, data, hj, Option.some.inj hword⟩
      · rw [hcall] at hj
        exact Or.inr ⟨data, Option.some.inj hj, Option.some.inj hword⟩
  · rintro (⟨j, hlt, data, hj, hword⟩ | ⟨data, rfl, hword⟩)
    · refine ⟨.findOrAdd data, List.mem_iff_getElem?.mpr ⟨j, ?_⟩, congrArg some hword⟩
      rw [List.getElem?_take_of_lt (by omega)]
      exact hj
    · refine ⟨.findOrAdd data, List.mem_iff_getElem?.mpr ⟨i, ?_⟩, congrArg some hword⟩
      rw [List.getElem?_take_of_lt (Nat.lt_succ_self i)]
      exact hcall

theorem lexicon_maps_words {calls : List LexiconCall}
    (hshort : ∀ call ∈ calls, call.bytes.length < 2 ^ 32)
    (hcount : (addedWords calls).eraseDups.length < 2 ^ 32 - 1)
    {lexicon : Lexicon} {answers : List (Option (UInt32 × UInt32))}
    (hrun : lexiconRun lexiconInit calls = (lexicon, answers)) :
    (∀ (i : ℕ) (data : Bytes), calls[i]? = some (.findOrAdd data) → ∃ id bucket,
      answers[i]? = some (some (id, bucket)) ∧
        id.toNat = (addedWords calls).eraseDups.idxOf (lowerBytes data)) ∧
    (∀ (i j : ℕ) (c d : LexiconCall) (a b : UInt32 × UInt32), calls[i]? = some c → calls[j]? = some d →
      answers[i]? = some (some a) → answers[j]? = some (some b) →
        (a.1 = b.1 ↔ lowerBytes c.bytes = lowerBytes d.bytes) ∧
          (lowerBytes c.bytes = lowerBytes d.bytes → a = b)) ∧
    (∀ (i : ℕ) (data : Bytes), calls[i]? = some (.findExisting data) → ∃ answer, answers[i]? = some answer ∧
      (answer.isSome ↔
        ∃ j < i, ∃ added, calls[j]? = some (.findOrAdd added) ∧ lowerBytes added = lowerBytes data)) ∧
    0 < lexicon.slotCount ∧ ∀ k < lexicon.slotCount, ∃ chain,
      Chain LexEntry.nextNumber lexicon.entries (lexicon.slots k).toNat chain ∧ chain.Nodup ∧
        ∀ (i : ℕ) (entry : LexEntry), lexicon.entries[i]? = some entry →
          (i ∈ chain ↔ entry.hash.toNat % lexicon.slotCount = k) := by
  rw [← noteCalls_eq] at hcount
  obtain ⟨hspells, hanswers⟩ := lexiconRun_spells lexiconInit_spells hshort hcount
  rw [hrun] at hspells hanswers
  have hpre : ∀ n, noteCalls [] (calls.take n) <+: noteCalls [] calls := by
    intro n
    have happ := prefix_noteCalls (noteCalls [] (calls.take n)) (calls.drop n)
    rwa [noteCalls, noteCalls, ← List.foldl_append, List.take_append_drop] at happ
  have hat : ∀ {i : ℕ} {c : LexiconCall}, calls[i]? = some c →
      answers[i]? = some (locate (noteCalls [] (calls.take (i + 1))) (lowerBytes c.bytes)) := by
    intro i c hc
    have hi := hanswers i
    rwa [hc] at hi
  refine ⟨fun i data hcall => ?_, fun i j c d a b hc hd ha hb => ?_, fun i data hcall => ?_,
    hspells.slotCount_pos, fun k _ => ⟨_, hspells.chained k, nodup_members _ _ k, fun i entry hentry => ?_⟩⟩
  · have hmem : lowerBytes data ∈ noteCalls [] (calls.take (i + 1)) :=
      (mem_noteCalls_take hcall).mpr (Or.inr ⟨data, rfl, rfl⟩)
    obtain ⟨answer, hsome⟩ := Option.isSome_iff_exists.mp (locate_isSome.mpr hmem)
    have hfinal := locate_prefix (hpre (i + 1)) hsome
    rw [locate, if_pos ((hpre (i + 1)).subset hmem), Option.some.injEq] at hfinal
    refine ⟨answer.1, answer.2, (hat hcall).trans (congrArg some hsome), ?_⟩
    have hlt := List.idxOf_lt_length_of_mem ((hpre (i + 1)).subset hmem)
    have hlt : (noteCalls [] calls).idxOf (lowerBytes data) < 2 ^ 32 := by omega
    rw [← hfinal, ← noteCalls_eq]
    exact UInt32.toNat_ofNat_of_lt' hlt
  · have hfinal : ∀ {i : ℕ} {c : LexiconCall} {a : UInt32 × UInt32}, calls[i]? = some c → answers[i]? = some (some a) →
        locate (noteCalls [] calls) (lowerBytes c.bytes) = some a := by
      intro i c a hc ha
      rw [hat hc, Option.some.injEq] at ha
      exact locate_prefix (hpre (i + 1)) ha
    exact locate_inj (by omega) (hfinal hc ha) (hfinal hd hb)
  · refine ⟨_, hat hcall, ?_⟩
    rw [locate_isSome, mem_noteCalls_take hcall]
    constructor
    · rintro (hadded | ⟨data', hcontra, -⟩)
      · exact hadded
      · cases hcontra
    · exact Or.inl
  · rw [mem_members]
    constructor
    · rintro ⟨entry', hentry', hk⟩
      rw [hentry] at hentry'
      obtain rfl := Option.some.inj hentry'
      exact hk
    · exact fun hk => ⟨entry, hentry, hk⟩

theorem lexicon_maps_words_up_to_case :
    ∃ answer, (lexiconRun lexiconInit
        [.findOrAdd (ascii "Ab"), .findOrAdd (ascii "c"), .findExisting (ascii "aB")]).2[2]? =
          some answer ∧
      (answer.isSome ↔ ∃ j < 2, ∃ added,
        [LexiconCall.findOrAdd (ascii "Ab"), .findOrAdd (ascii "c"),
          .findExisting (ascii "aB")][j]? = some (.findOrAdd added) ∧
            lowerBytes added = lowerBytes (ascii "aB")) := by
  have h := @lexicon_maps_words
    [.findOrAdd (ascii "Ab"), .findOrAdd (ascii "c"), .findExisting (ascii "aB")]
    (by decide) (by decide) _ _ rfl
  exact h.2.2.1 2 (ascii "aB") rfl

end SystemsLab.Search
