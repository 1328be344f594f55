import SystemsLab.Search.Text
import Mathlib.Logic.Function.Basic

namespace SystemsLab.Search

open CLib

def lexiconSlotsInit : ℕ := 4096
def occBuckets : UInt32 := 256

/-- An entry without `cache_path` and `cache_count`, which are part of the session. -/
structure LexEntry where
  text : Bytes
  len : UInt32
  id : UInt32
  hash : UInt32
  bucket : UInt32
  next : UInt32

/-- A slot holds the number of an entry, counted from 1, or 0. -/
structure Lexicon where
  entries : List LexEntry
  slots : ℕ → UInt32
  slotCount : ℕ

def lexiconInit : Lexicon := ⟨[], fun _ => 0, lexiconSlotsInit⟩

/-- The loop of `lexicon_rehash` over the entries from `i` on. -/
def rehashFrom (nextSlots : ℕ) :
    ℕ → List LexEntry → (ℕ → UInt32) → List LexEntry × (ℕ → UInt32)
  | _, [], slots => ([], slots)
  | i, entry :: entries, slots =>
    let k := entry.hash.toNat % nextSlots
    let (entries, slots') :=
      rehashFrom nextSlots (i + 1) entries (Function.update slots k (UInt32.ofNat (i + 1)))
    ({ entry with next := slots k } :: entries, slots')

def lexiconRehash (lexicon : Lexicon) (nextSlots : ℕ) : Lexicon :=
  let (entries, slots) := rehashFrom nextSlots 0 lexicon.entries fun _ => 0
  ⟨entries, slots, nextSlots⟩

def LexEntry.holds (entry : LexEntry) (data : Bytes) (hash : UInt32) : Bool :=
  entry.hash == hash && entry.len.toNat == data.length &&
    caseEqualBytes entry.text data data.length

/-- The loop of `lexicon_lookup`. A chain goes on to a smaller number, see `lookupFrom_next`. -/
def lookupFrom (entries : List LexEntry) (data : Bytes) (hash index : UInt32) : Option ℕ :=
  if index = 0 then none
  else
    match entries[index.toNat - 1]? with
    | none => none
    | some entry =>
      if entry.holds data hash then some (index.toNat - 1)
      else if _h : entry.next < index then lookupFrom entries data hash entry.next
      else none
termination_by index.toNat

def lexiconLookup (lexicon : Lexicon) (data : Bytes) (hash : UInt32) : Option ℕ :=
  lookupFrom lexicon.entries data hash (lexicon.slots (hash.toNat % lexicon.slotCount))

def lexiconFindExisting (lexicon : Lexicon) (data : Bytes) : Option (UInt32 × UInt32) := do
  let entryIndex ← lexiconLookup lexicon data (hashLowerBytes data)
  let entry ← lexicon.entries[entryIndex]?
  some (entry.id, entry.bucket)

/-- The end of `lexicon_find_or_add`: the word gets the next entry. -/
def lexiconAdd (lexicon : Lexicon) (data : Bytes) : Lexicon × UInt32 × UInt32 :=
  let hash := hashLowerBytes data
  let slotIndex := hash.toNat % lexicon.slotCount
  let entry : LexEntry :=
    { text := data.map asciiLower
      len := UInt32.ofNat data.length
      id := UInt32.ofNat lexicon.entries.length
      hash := hash
      bucket := hash % occBuckets
      next := lexicon.slots slotIndex }
  (⟨lexicon.entries ++ [entry],
      Function.update lexicon.slots slotIndex (UInt32.ofNat (lexicon.entries.length + 1)),
      lexicon.slotCount⟩,
    entry.id, entry.bucket)

def lexiconFindOrAdd (lexicon : Lexicon) (data : Bytes) : Lexicon × UInt32 × UInt32 :=
  match lexiconFindExisting lexicon data with
  | some (wordId, bucket) => (lexicon, wordId, bucket)
  | none =>
    if (lexicon.entries.length + 1) * 4 ≥ lexicon.slotCount * 3 then
      lexiconAdd (lexiconRehash lexicon (lexicon.slotCount * 2)) data
    else lexiconAdd lexicon data

structure Lexicon.Sound (lexicon : Lexicon) : Prop where
  id_eq : ∀ (i : ℕ) (entry : LexEntry), lexicon.entries[i]? = some entry → entry.id = UInt32.ofNat i
  next_le : ∀ (i : ℕ) (entry : LexEntry), lexicon.entries[i]? = some entry → entry.next.toNat ≤ i
  slot_le : ∀ k, (lexicon.slots k).toNat ≤ lexicon.entries.length

variable {lexicon : Lexicon} {data : Bytes} {hash : UInt32} {entry : LexEntry} {i k : ℕ}

lemma lexiconInit_sound : lexiconInit.Sound where
  id_eq _ _ h := nomatch h
  next_le _ _ h := nomatch h
  slot_le _ := le_rfl

lemma toNat_ofNat_le (n : ℕ) : (UInt32.ofNat n).toNat ≤ n := by
  rw [UInt32.toNat_ofNat']
  exact Nat.mod_le n _

lemma rehashFrom_spec {nextSlots : ℕ} {entries : List LexEntry} {slots : ℕ → UInt32}
    (hs : ∀ k, (slots k).toNat ≤ i) :
    (rehashFrom nextSlots i entries slots).1.length = entries.length ∧
      (∀ k, ((rehashFrom nextSlots i entries slots).2 k).toNat ≤ i + entries.length) ∧
      ∀ (j : ℕ) (entry : LexEntry), (rehashFrom nextSlots i entries slots).1[j]? = some entry →
        entry.next.toNat ≤ i + j ∧
          ∃ old, entries[j]? = some old ∧ entry = { old with next := entry.next } := by
  induction entries generalizing i slots with
  | nil => exact ⟨rfl, fun k => hs k, fun j entry h => nomatch h⟩
  | cons first entries ih =>
    have hs' : ∀ k, (Function.update slots (first.hash.toNat % nextSlots)
        (UInt32.ofNat (i + 1)) k).toNat ≤ i + 1 := by
      intro k
      by_cases hk : k = first.hash.toNat % nextSlots
      · rw [hk, Function.update_self]
        exact toNat_ofNat_le (i + 1)
      · rw [Function.update_of_ne hk]
        exact (hs k).trans (Nat.le_succ i)
    obtain ⟨hlen, hslot, hentry⟩ := ih hs'
    simp only [rehashFrom]
    refine ⟨congrArg (· + 1) hlen, fun k => ?_, fun j entry hj => ?_⟩
    · rw [List.length_cons]
      have hk := hslot k
      omega
    · cases j with
      | zero =>
        simp only [List.getElem?_cons_zero, Option.some.injEq] at hj
        subst hj
        exact ⟨hs _, first, rfl, rfl⟩
      | succ j =>
        rw [List.getElem?_cons_succ] at hj
        obtain ⟨hle, old, hold, he⟩ := hentry j entry hj
        refine ⟨by omega, old, ?_, he⟩
        rwa [List.getElem?_cons_succ]

lemma Lexicon.rehash_spec (lexicon : Lexicon) (nextSlots : ℕ) :
    (rehashFrom nextSlots 0 lexicon.entries fun _ => 0).1.length = lexicon.entries.length ∧
      (∀ k, ((rehashFrom nextSlots 0 lexicon.entries fun _ => 0).2 k).toNat ≤
        0 + lexicon.entries.length) ∧
      ∀ (j : ℕ) (entry : LexEntry),
        (rehashFrom nextSlots 0 lexicon.entries fun _ => 0).1[j]? = some entry →
          entry.next.toNat ≤ 0 + j ∧
            ∃ old, lexicon.entries[j]? = some old ∧ entry = { old with next := entry.next } :=
  rehashFrom_spec fun _ => le_rfl

lemma Lexicon.Sound.rehash (h : lexicon.Sound) (nextSlots : ℕ) :
    (lexiconRehash lexicon nextSlots).Sound := by
  obtain ⟨hlen, hslot, hentry⟩ := lexicon.rehash_spec nextSlots
  constructor
  · intro i entry hi
    obtain ⟨-, old, hold, he⟩ := hentry i entry hi
    rw [he]
    exact h.id_eq i old hold
  · intro i entry hi
    have hle := (hentry i entry hi).1
    omega
  · intro k
    have hk := hslot k
    rw [Nat.zero_add] at hk
    exact hk.trans hlen.ge

lemma Lexicon.Sound.add (h : lexicon.Sound) (data : Bytes) : (lexiconAdd lexicon data).1.Sound := by
  have hlast : ∀ {entry last : LexEntry} {i : ℕ}, (lexicon.entries ++ [last])[i]? = some entry →
      lexicon.entries[i]? = some entry ∨ i = lexicon.entries.length ∧ entry = last := by
    intro entry last i hi
    rcases lt_or_ge i lexicon.entries.length with hlt | hge
    · rw [List.getElem?_append_left hlt] at hi
      exact Or.inl hi
    · rw [List.getElem?_append_right hge, List.getElem?_singleton] at hi
      split_ifs at hi with h0
      exact Or.inr ⟨by omega, (Option.some.inj hi).symm⟩
  constructor
  · intro i entry hi
    rcases hlast hi with hi | ⟨rfl, rfl⟩
    · exact h.id_eq i entry hi
    · rfl
  · intro i entry hi
    rcases hlast hi with hi | ⟨rfl, rfl⟩
    · exact h.next_le i entry hi
    · exact h.slot_le _
  · intro k
    simp only [lexiconAdd, List.length_append, List.length_singleton]
    by_cases hk : k = (hashLowerBytes data).toNat % lexicon.slotCount
    · rw [hk, Function.update_self]
      exact toNat_ofNat_le _
    · rw [Function.update_of_ne hk]
      exact (h.slot_le k).trans (Nat.le_succ _)

lemma Lexicon.Sound.findOrAdd (h : lexicon.Sound) (data : Bytes) :
    (lexiconFindOrAdd lexicon data).1.Sound := by
  rw [lexiconFindOrAdd]
  split
  · exact h
  · split_ifs
    · exact (h.rehash _).add data
    · exact h.add data

lemma lookupFrom_next (h : lexicon.Sound) {index : UInt32} (hne : index ≠ 0)
    (hentry : lexicon.entries[index.toNat - 1]? = some entry) (hno : entry.holds data hash = false) :
    lookupFrom lexicon.entries data hash index =
      lookupFrom lexicon.entries data hash entry.next := by
  have hpos : index.toNat ≠ 0 := fun h0 => hne (UInt32.toNat_inj.mp h0)
  have hlt : entry.next < index := by
    rw [UInt32.lt_iff_toNat_lt]
    have hle := h.next_le _ _ hentry
    omega
  rw [lookupFrom, if_neg hne, hentry]
  simp only [hno, Bool.false_eq_true, if_false, dif_pos hlt]

lemma lookupFrom_lt {entries : List LexEntry} {index : UInt32}
    (h : lookupFrom entries data hash index = some i) : i + 1 < 2 ^ 32 := by
  fun_induction lookupFrom entries data hash index with
  | case1 => cases h
  | case2 => cases h
  | case3 index hne entry hentry hold =>
    cases h
    have hlt := index.toNat_lt
    have hpos : index.toNat ≠ 0 := fun h0 => hne (UInt32.toNat_inj.mp h0)
    omega
  | case4 index hne entry hentry hold hlt ih => exact ih h
  | case5 => cases h

lemma lexiconFindExisting_spec (h : lexicon.Sound) {wordId bucket : UInt32}
    (hfind : lexiconFindExisting lexicon data = some (wordId, bucket)) :
    ∃ entry, lexicon.entries[wordId.toNat]? = some entry ∧ entry.id = wordId ∧
      entry.bucket = bucket := by
  simp only [lexiconFindExisting, Option.bind_eq_bind, Option.bind_eq_some_iff] at hfind
  obtain ⟨i, hi, entry, hentry, he⟩ := hfind
  simp only [Option.some.injEq, Prod.mk.injEq] at he
  obtain ⟨rfl, rfl⟩ := he
  have hlt := lookupFrom_lt hi
  have hid := h.id_eq i entry hentry
  refine ⟨entry, ?_, rfl, rfl⟩
  rw [hid, UInt32.toNat_ofNat', Nat.mod_eq_of_lt (by omega)]
  exact hentry

end SystemsLab.Search
