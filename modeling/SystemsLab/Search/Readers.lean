import SystemsLab.Search.Places
import SystemsLab.Streams.Merging

namespace SystemsLab.Search

open CLib Streams

structure Layout {α : Type} (block : α → Bytes) (size : ℕ) (ofBytes : Bytes → α) : Prop where
  size_pos : 0 < size
  length : ∀ a, (block a).length = size
  ofBytes : ∀ a, ofBytes (block a) = a

lemma occRecordLayout : Layout OccRecord.bytes occRecordSize OccRecord.ofBytes where
  size_pos := by decide
  length := length_bytes
  ofBytes := ofBytes_bytes

def lineNumberBytes (n : UInt32) : Bytes := leBytes 4 n.toNat

lemma lineNumberLayout : Layout lineNumberBytes lineNumberSize lineNumberOfBytes where
  size_pos := by decide
  length n := length_leBytes 4 _
  ofBytes n := by
    have h : u32At ([] ++ (leBytes 4 n.toNat ++ [])) 0 = n := u32At_append List.length_nil
    rwa [List.nil_append, List.append_nil] at h

variable {α : Type} {block : α → Bytes} {size cap : ℕ} {ofBytes : Bytes → α} {items pending : List α}

lemma Layout.itemsOf_blocks (h : Layout block size ofBytes) (as : List α) :
    itemsOf size ofBytes (as.flatMap block) = as := by
  induction as with
  | nil => simp [itemsOf]
  | cons a as ih => rw [List.flatMap_cons, itemsOf_append h.size_pos (h.length a), h.ofBytes, ih]

namespace FileReader

variable {r r' : FileReader α}

def Holds (block : α → Bytes) (r : FileReader α) (pending : List α) : Prop :=
  ∃ rest, r.file = rest.flatMap block ∧ pending = r.buffer ++ rest

def Shows (block : α → Bytes) (r : FileReader α) (items : List α) : Prop :=
  (r.hasItem = true ∧ ∃ rest, items = r.current :: rest ∧ r.Holds block rest) ∨
    (r.hasItem = false ∧ items = [] ∧ r.Holds block [])

lemma openFile_holds [Inhabited α] (items : List α) :
    (openFile (items.flatMap block)).Holds block items := ⟨items, rfl, rfl⟩

lemma Shows.hasItem_iff (h : r.Shows block items) : r.hasItem = true ↔ items ≠ [] := by
  rcases h with ⟨hitem, rest, rfl, -⟩ | ⟨hitem, rfl, -⟩
  · simp [hitem]
  · simp [hitem]

lemma Shows.cons (h : r.Shows block items) (hitem : r.hasItem = true) :
    ∃ rest, items = r.current :: rest ∧ r.Holds block rest := by
  rcases h with ⟨-, hrest⟩ | ⟨hno, -⟩
  · exact hrest
  · rw [hitem] at hno
    cases hno

lemma next_shows (hlayout : Layout block size ofBytes) (hcap : 0 < cap) (h : r.Holds block pending) :
    ∃ b r', r.next size cap ofBytes = some (b, r') ∧ r'.Shows block pending := by
  obtain ⟨rest, hfile, rfl⟩ := h
  rw [next]
  cases hbuffer : r.buffer with
  | cons item buffer => exact ⟨true, _, rfl, Or.inl ⟨rfl, buffer ++ rest, rfl, rest, hfile, rfl⟩⟩
  | nil =>
    obtain ⟨htake, hdrop⟩ := take_drop_blocks hlayout.length rest cap
    have hlen := length_blocks hlayout.length (rest.take cap)
    simp only [hfile, htake, hdrop, hlayout.itemsOf_blocks]
    cases rest with
    | nil =>
      rw [List.take_nil]
      exact ⟨false, _, rfl, Or.inr ⟨rfl, rfl, [], rfl, rfl⟩⟩
    | cons item rest =>
      obtain ⟨n, rfl⟩ := Nat.exists_eq_add_of_lt hcap
      rw [Nat.zero_add] at hlen ⊢
      have hne : ¬((item :: rest).take (n + 1)).flatMap block = [] := by
        intro h0
        rw [h0, List.length_nil, List.take_succ_cons, List.length_cons] at hlen
        exact absurd hlen (Nat.mul_pos hlayout.size_pos (Nat.succ_pos _)).ne
      have hmod : ¬(((item :: rest).take (n + 1)).flatMap block).length % size ≠ 0 := by
        rw [hlen, Nat.mul_mod_right]
        exact not_not.mpr rfl
      rw [if_neg hne, if_neg hmod]
      refine ⟨true, _, rfl, Or.inl ⟨rfl, rest, rfl, rest.drop n, rfl, ?_⟩⟩
      exact (List.take_append_drop n rest).symm

end FileReader

section Occurrences

variable {r r' left right : OccurrenceReader} {records ls rs : List OccRecord} {lineNo : UInt32}

def OccRecord.line (r : OccRecord) : ℕ := r.lineNo.toNat

abbrev Showing (r : OccurrenceReader) (records : List OccRecord) : Prop :=
  r.Shows OccRecord.bytes records

lemma occurrenceReaderNext_shows (h : r.Holds OccRecord.bytes records) :
    ∃ b r', occurrenceReaderNext r = some (b, r') ∧ Showing r' records :=
  FileReader.next_shows occRecordLayout (by decide) h

lemma line_eq_iff (r : OccRecord) (lineNo : UInt32) : r.line = lineNo.toNat ↔ r.lineNo = lineNo :=
  UInt32.toNat_inj

lemma skipLine_shows (h : Showing r records) (lineNo : UInt32) :
    ∃ r', skipLine lineNo r = some r' ∧ Showing r' (dropGroup OccRecord.line lineNo.toNat records) := by
  induction records generalizing r with
  | nil =>
    have hitem : ¬r.hasItem = true := fun hitem => h.hasItem_iff.mp hitem rfl
    rw [skipLine, dif_neg fun hc => hitem hc.1]
    exact ⟨r, rfl, h⟩
  | cons a records ih =>
    have hitem : r.hasItem = true := h.hasItem_iff.mpr (List.cons_ne_nil _ _)
    obtain ⟨rest, heq, hrest⟩ := h.cons hitem
    obtain ⟨rfl, rfl⟩ := List.cons.inj heq
    by_cases hline : r.current.lineNo = lineNo
    · obtain ⟨b, r', hnext, hshows⟩ := occurrenceReaderNext_shows hrest
      rw [skipLine, dif_pos ⟨hitem, hline⟩, dropGroup_cons_of_eq ((line_eq_iff _ _).mpr hline)]
      split
      · next hn =>
        rw [hnext] at hn
        cases hn
      · next hn =>
        rw [hnext] at hn
        cases hn
        exact ih hshows
    · rw [skipLine, dif_neg fun hc => hline hc.2,
        dropGroup_cons_of_ne fun hl => hline ((line_eq_iff _ _).mp hl)]
      exact ⟨r, rfl, h⟩

def lastStart (records : List OccRecord) (last : UInt32) : UInt32 :=
  (records.getLast?.map OccRecord.startIdx).getD last

lemma skipLineLast_shows (h : Showing r records) (lineNo last : UInt32) :
    ∃ r', skipLineLast lineNo r last =
        some (r', lastStart (takeGroup OccRecord.line lineNo.toNat records) last) ∧
      Showing r' (dropGroup OccRecord.line lineNo.toNat records) := by
  induction records generalizing r last with
  | nil =>
    have hitem : ¬r.hasItem = true := fun hitem => h.hasItem_iff.mp hitem rfl
    rw [skipLineLast, dif_neg fun hc => hitem hc.1]
    exact ⟨r, rfl, h⟩
  | cons a records ih =>
    have hitem : r.hasItem = true := h.hasItem_iff.mpr (List.cons_ne_nil _ _)
    obtain ⟨rest, heq, hrest⟩ := h.cons hitem
    obtain ⟨rfl, rfl⟩ := List.cons.inj heq
    by_cases hline : r.current.lineNo = lineNo
    · obtain ⟨b, r', hnext, hshows⟩ := occurrenceReaderNext_shows hrest
      have hkey := (line_eq_iff r.current lineNo).mpr hline
      rw [skipLineLast, dif_pos ⟨hitem, hline⟩, dropGroup_cons_of_eq hkey, takeGroup_cons_of_eq hkey]
      split
      · next hn =>
        rw [hnext] at hn
        cases hn
      · next hn =>
        rw [hnext] at hn
        cases hn
        obtain ⟨r₂, hskip, hend⟩ := ih hshows r.current.startIdx
        refine ⟨r₂, ?_, hend⟩
        rw [hskip, lastStart, lastStart, List.getLast?_cons]
        cases (takeGroup OccRecord.line lineNo.toNat records).getLast? <;> rfl
    · have hkey := fun hl => hline ((line_eq_iff r.current lineNo).mp hl)
      rw [skipLineLast, dif_neg fun hc => hline hc.2, dropGroup_cons_of_ne hkey,
        takeGroup_cons_of_ne hkey]
      exact ⟨r, rfl, h⟩

end Occurrences

section Sources

variable {r : OccurrenceReader} {records : List OccRecord} {source : LineNumberSource} {lines : List ℕ}

lemma lineNumberReaderNext_shows {r : LineNumberReader} {values : List UInt32}
    (h : r.Holds lineNumberBytes values) :
    ∃ b r', lineNumberReaderNext r = some (b, r') ∧ r'.Shows lineNumberBytes values :=
  FileReader.next_shows lineNumberLayout (by decide) h

def LineNumberSource.Yields (lines : List ℕ) : LineNumberSource → Prop
  | .wordCache r => ∃ records, lines = groupKeys OccRecord.line records ∧
      (Showing r records ∨ r.hasItem = false ∧ r.Holds OccRecord.bytes records)
  | .lineFile r => ∃ values, lines = values.map UInt32.toNat ∧ r.Holds lineNumberBytes values

lemma currentRecord_shows
    (h : Showing r records ∨ r.hasItem = false ∧ r.Holds OccRecord.bytes records) :
    ∃ r', currentRecord r = some (r'.hasItem, r') ∧ Showing r' records := by
  by_cases hitem : r.hasItem = true
  · rw [currentRecord, if_pos hitem]
    rcases h with h | ⟨hno, -⟩
    · exact ⟨r, by rw [hitem], h⟩
    · rw [hitem] at hno
      cases hno
  · have hholds : r.Holds OccRecord.bytes records := by
      rcases h with (⟨hyes, -⟩ | ⟨-, rfl, hholds⟩) | ⟨-, hholds⟩
      · exact (hitem hyes).elim
      · exact hholds
      · exact hholds
    obtain ⟨b, r', hnext, hshows⟩ := occurrenceReaderNext_shows hholds
    have hb : r'.hasItem = b := (FileReader.next_spec hnext).1
    rw [currentRecord, if_neg hitem, hnext, ← hb]
    exact ⟨r', rfl, hshows⟩

lemma lineNumberSourceNext_yields (h : source.Yields lines) :
    (lines = [] ∧ lineNumberSourceNext source = some none) ∨
      ∃ lineNo rest source', lines = UInt32.toNat lineNo :: rest ∧
        lineNumberSourceNext source = some (some (lineNo, source')) ∧ source'.Yields rest := by
  cases source with
  | wordCache r =>
    obtain ⟨records, rfl, hr⟩ := h
    obtain ⟨r', hcurrent, hshows⟩ := currentRecord_shows hr
    rw [lineNumberSourceNext, hcurrent, Option.bind_eq_bind, Option.bind_some]
    cases hitem : r'.hasItem with
    | false =>
      have hnil : records = [] := by
        by_contra hne
        rw [hshows.hasItem_iff.mpr hne] at hitem
        cases hitem
      subst hnil
      exact Or.inl ⟨by rw [groupKeys], rfl⟩
    | true =>
      obtain ⟨rest, rfl, -⟩ := hshows.cons hitem
      obtain ⟨r₂, hskip, hend⟩ := skipLine_shows hshows r'.current.lineNo
      rw [dropGroup_cons_of_eq ((line_eq_iff _ _).mpr rfl)] at hend
      refine Or.inr ⟨r'.current.lineNo, _, .wordCache r₂, ?_, ?_, _, rfl, Or.inl hend⟩
      · rw [groupKeys]
        rfl
      · simp [hskip]
  | lineFile r =>
    obtain ⟨values, rfl, hr⟩ := h
    obtain ⟨b, r', hnext, hshows⟩ := lineNumberReaderNext_shows hr
    have hb : r'.hasItem = b := (FileReader.next_spec hnext).1
    rw [lineNumberSourceNext, hnext, Option.bind_eq_bind, Option.bind_some]
    rcases hshows with ⟨hitem, rest, rfl, hrest⟩ | ⟨hitem, rfl, -⟩
    · rw [← hb, hitem]
      exact Or.inr ⟨r'.current, rest.map UInt32.toNat, .lineFile r', rfl, rfl, rest, rfl, hrest⟩
    · rw [← hb, hitem]
      exact Or.inl ⟨rfl, rfl⟩

def Advanced.Yields (lines : List ℕ) : Advanced → Prop
  | none => lines = []
  | some (lineNo, source) => ∃ rest, lines = lineNo.toNat :: rest ∧ source.Yields rest

lemma next_advanced (h : source.Yields lines) :
    ∃ next : Advanced, lineNumberSourceNext source = some next ∧ next.Yields lines := by
  rcases lineNumberSourceNext_yields h with ⟨rfl, hnext⟩ | ⟨lineNo, rest, source', rfl, hnext, hrest⟩
  · exact ⟨none, hnext, rfl⟩
  · exact ⟨some (lineNo, source'), hnext, rest, rfl, hrest⟩

end Sources

end SystemsLab.Search
