import SystemsLab.Search.Vocabulary

namespace SystemsLab.Search

open CLib

def SepAt (line : Bytes) (i : ℕ) : Prop := ∃ c, (line)[i]? = some c ∧ isWordSep c = true

def BeginsAt (line : Bytes) (start : ℕ) : Prop := start = 0 ∨ SepAt line (start - 1)

def StopsAt (line : Bytes) (stop : ℕ) : Prop := stop = line.length ∨ SepAt line stop

structure IsWordAt (line : Bytes) (start : ℕ) (word : Bytes) : Prop where
  ne_nil : word ≠ []
  no_sep : ∀ c ∈ word, isWordSep c = false
  occurs : word <+: line.drop start
  begins : BeginsAt line start
  stops : StopsAt line (start + word.length)

variable {line pre gap s t rest word word' : Bytes} {start i : ℕ} {c : UInt8}

lemma not_sepAt (h : (line)[i]? = some c) (hc : isWordSep c = false) : ¬SepAt line i := by
  rintro ⟨d, hd, hsep⟩
  rw [h, Option.some.injEq] at hd
  rw [← hd, hc] at hsep
  exact Bool.false_ne_true hsep

lemma getElem?_of_prefix_drop (h : word <+: line.drop start) (hi : i < word.length) :
    (line)[start + i]? = word[i]? := by
  obtain ⟨more, hmore⟩ := h
  rw [← List.getElem?_drop, ← hmore, List.getElem?_append_left hi]

namespace IsWordAt

lemma pos (h : IsWordAt line start word) : 0 < word.length := List.length_pos_iff.mpr h.ne_nil

lemma getElem? (h : IsWordAt line start word) (hi : i < word.length) :
    ∃ c, (line)[start + i]? = some c ∧ isWordSep c = false := by
  refine ⟨word[i], ?_, h.no_sep _ (List.getElem_mem hi)⟩
  rw [getElem?_of_prefix_drop h.occurs hi, List.getElem?_eq_getElem hi]

lemma not_sepAt (h : IsWordAt line start word) (hi : i < word.length) : ¬SepAt line (start + i) := by
  obtain ⟨c, hc, hsep⟩ := h.getElem? hi
  exact Search.not_sepAt hc hsep

lemma stop_le (h : IsWordAt line start word) : start + word.length ≤ line.length := by
  have hpos := h.pos
  have hle := h.occurs.length_le
  rw [List.length_drop] at hle
  omega

lemma not_inside (h : IsWordAt line start word) (hlt : start < i) (hle : i < start + word.length) :
    ¬BeginsAt line i ∧ ¬StopsAt line i := by
  obtain ⟨j, rfl⟩ := Nat.exists_eq_add_of_lt hlt
  constructor
  · rintro (h0 | hsep)
    · omega
    · have hj : start + j + 1 - 1 = start + j := rfl
      rw [hj] at hsep
      exact h.not_sepAt (by omega) hsep
  · rintro (hend | hsep)
    · have hstop := h.stop_le
      omega
    · rw [Nat.add_assoc] at hsep
      exact h.not_sepAt (by omega) hsep

lemma unique (h : IsWordAt line start word) (h' : IsWordAt line start word') : word = word' := by
  have hpos := h.pos
  have hpos' := h'.pos
  have hlen : word.length = word'.length := by
    rcases Nat.lt_trichotomy word.length word'.length with hlt | heq | hlt
    · exact ((h'.not_inside (by omega) (by omega)).2 h.stops).elim
    · exact heq
    · exact ((h.not_inside (by omega) (by omega)).2 h'.stops).elim
  rw [List.prefix_iff_eq_take.mp h.occurs, List.prefix_iff_eq_take.mp h'.occurs, hlen]

end IsWordAt

lemma sepAt_append (h : ∀ c ∈ gap, isWordSep c = true) (rest : Bytes) (hle : pre.length ≤ i)
    (hlt : i < pre.length + gap.length) : SepAt (pre ++ (gap ++ rest)) i := by
  have hi : i - pre.length < gap.length := by omega
  refine ⟨gap[i - pre.length], ?_, h _ (List.getElem_mem hi)⟩
  rw [List.getElem?_append_right hle, List.getElem?_append_left hi, List.getElem?_eq_getElem hi]

lemma isWordAt_takeWhile (hc : isWordSep c = false) (hbegins : BeginsAt (pre ++ c :: t) pre.length) :
    IsWordAt (pre ++ c :: t) pre.length ((c :: t).takeWhile (!isWordSep ·)) := by
  have hall := List.takeWhile_append_dropWhile (p := (!isWordSep ·)) (l := c :: t)
  constructor
  · rw [List.takeWhile_cons_of_pos (by rw [hc]; rfl)]
    exact List.cons_ne_nil _ _
  · intro d hd
    have hd := List.mem_takeWhile_imp hd
    rwa [Bool.not_eq_true'] at hd
  · rw [List.drop_left]
    exact List.takeWhile_prefix _
  · exact hbegins
  · generalize hword : (c :: t).takeWhile (!isWordSep ·) = word at hall
    cases hrest : (c :: t).dropWhile (!isWordSep ·) with
    | nil =>
      rw [hrest, List.append_nil] at hall
      exact Or.inl (by rw [hall, List.length_append])
    | cons d rest =>
      have hd := List.head_dropWhile_not (!isWordSep ·) (l := c :: t) (by rw [hrest]; exact nofun)
      simp only [hrest, List.head_cons, Bool.not_eq_false'] at hd
      rw [hrest] at hall
      refine Or.inr ⟨d, ?_, hd⟩
      rw [← hall, ← List.append_assoc, ← List.length_append]
      rw [List.getElem?_append_right le_rfl, Nat.sub_self]
      rfl

lemma isWordAt_split (hgap : ∀ c ∈ gap, isWordSep c = true) (hc : isWordSep c = false)
    (hbegins : gap = [] → BeginsAt (pre ++ c :: t) pre.length) :
    pre.length ≤ start ∧ IsWordAt (pre ++ (gap ++ c :: t)) start word ↔
      start = (pre ++ gap).length ∧ word = (c :: t).takeWhile (!isWordSep ·) ∨
        (pre ++ gap).length + ((c :: t).takeWhile (!isWordSep ·)).length ≤ start ∧
          IsWordAt (pre ++ (gap ++ c :: t)) start word := by
  have hline : pre ++ (gap ++ c :: t) = (pre ++ gap) ++ c :: t := (List.append_assoc _ _ _).symm
  have hfirst : IsWordAt (pre ++ (gap ++ c :: t)) (pre ++ gap).length
      ((c :: t).takeWhile (!isWordSep ·)) := by
    rw [hline]
    refine isWordAt_takeWhile hc ?_
    rcases List.eq_nil_or_concat gap with rfl | ⟨gap', d, rfl⟩
    · rw [List.append_nil]
      exact hbegins rfl
    · exact Or.inr (hline ▸ sepAt_append hgap (c :: t) (by simp) (by simp))
  have hpre : pre.length ≤ (pre ++ gap).length := by simp
  constructor
  · rintro ⟨hle, hword⟩
    rcases Nat.lt_trichotomy start (pre ++ gap).length with hlt | rfl | hgt
    · rw [List.length_append] at hlt
      exact (hword.not_sepAt hword.pos (sepAt_append hgap (c :: t) hle hlt)).elim
    · exact Or.inl ⟨rfl, hword.unique hfirst⟩
    · refine Or.inr ⟨?_, hword⟩
      by_contra hlt
      exact (hfirst.not_inside hgt (by omega)).1 hword.begins
  · rintro (⟨rfl, rfl⟩ | ⟨hle, hword⟩)
    · exact ⟨hpre, hfirst⟩
    · exact ⟨by omega, hword⟩

lemma head_dropWhile_sep {s : Bytes} (h : (s.dropWhile (!isWordSep ·)).head? = some c) :
    isWordSep c = true := by
  have hne : s.dropWhile (!isWordSep ·) ≠ [] := by
    intro h0
    rw [h0] at h
    cases h
  have hhead := List.head_dropWhile_not (!isWordSep ·) hne
  rw [List.head?_eq_some_head hne, Option.some.injEq] at h
  rwa [h, Bool.not_eq_false'] at hhead

lemma mem_wordsFrom_append {n : ℕ} (hn : pre.length = n)
    (hbegins : ∀ c, s.head? = some c → isWordSep c = false → BeginsAt (pre ++ s) n) :
    (start, word) ∈ wordsFrom n s ↔ n ≤ start ∧ IsWordAt (pre ++ s) start word := by
  subst hn
  induction hlen : s.length using Nat.strong_induction_on generalizing pre s with
  | h _ ih =>
    subst hlen
    have hsplit := List.takeWhile_append_dropWhile (p := isWordSep) (l := s)
    have hgap : ∀ c ∈ s.takeWhile isWordSep, isWordSep c = true := fun c => List.mem_takeWhile_imp
    cases hdrop : s.dropWhile isWordSep with
    | nil =>
      rw [wordsFrom_nil hdrop]
      rw [hdrop, List.append_nil] at hsplit
      rw [hsplit] at hgap
      constructor
      · exact nofun
      · rintro ⟨hle, hword⟩
        have hpos := hword.pos
        have hstop := hword.stop_le
        rw [List.length_append] at hstop
        have hsep := sepAt_append hgap [] hle (by omega)
        rw [List.append_nil] at hsep
        exact (hword.not_sepAt hpos hsep).elim
    | cons c t =>
      have hc : isWordSep c = false := isWordSep_of_dropWhile hdrop
      rw [wordsFrom_cons hdrop]
      rw [hdrop] at hsplit
      generalize s.takeWhile isWordSep = gap at hsplit hgap
      subst hsplit
      have hstart : pre.length + ((gap ++ c :: t).length - (c :: t).length) = (pre ++ gap).length := by
        rw [List.length_append, List.length_append, Nat.add_sub_cancel]
      have hlt : ((c :: t).dropWhile (!isWordSep ·)).length < (gap ++ c :: t).length := by
        have hlt := length_dropWhile_lt (p := (!isWordSep ·)) (s := t) (c := c) (by rw [hc]; rfl)
        rw [List.length_append]
        omega
      have hline : (pre ++ gap ++ (c :: t).takeWhile (!isWordSep ·)) ++
          (c :: t).dropWhile (!isWordSep ·) = pre ++ (gap ++ c :: t) := by
        rw [List.append_assoc _ _ (List.dropWhile _ _), List.takeWhile_append_dropWhile,
          List.append_assoc]
      have hnext : (start, word) ∈ wordsFrom (pre ++ gap ++ (c :: t).takeWhile (!isWordSep ·)).length
          ((c :: t).dropWhile (!isWordSep ·)) ↔ _ ∧ IsWordAt (_ ++ _) start word :=
        ih _ hlt (fun d hd hsep => by
          rw [head_dropWhile_sep hd] at hsep
          cases hsep) rfl
      rw [hline, List.length_append] at hnext
      rw [hstart, List.mem_cons, hnext, Prod.mk.injEq,
        isWordAt_split hgap hc fun h0 => by
          subst h0
          exact hbegins c rfl hc]

lemma mem_wordsFrom : (start, word) ∈ wordsFrom 0 line ↔ IsWordAt line start word := by
  have h : (start, word) ∈ wordsFrom 0 line ↔ 0 ≤ start ∧ IsWordAt ([] ++ line) start word :=
    mem_wordsFrom_append List.length_nil fun _ _ _ => Or.inl rfl
  rwa [List.nil_append, and_iff_right (Nat.zero_le start)] at h

lemma wordsFrom_sorted (n : ℕ) (s : Bytes) :
    ((wordsFrom n s).map Prod.fst).Pairwise (· < ·) ∧ ∀ p ∈ wordsFrom n s, n ≤ p.1 := by
  fun_induction wordsFrom n s with
  | case1 n s h => exact ⟨List.Pairwise.nil, nofun⟩
  | case2 n s c t h start word ih =>
    have hc : isWordSep c = false := isWordSep_of_dropWhile h
    have hword : 0 < ((c :: t).takeWhile (!isWordSep ·)).length := by
      rw [List.takeWhile_cons_of_pos (by rw [hc]; rfl)]
      exact Nat.succ_pos _
    refine ⟨List.Pairwise.cons ?_ ih.1, ?_⟩
    · intro i hi
      obtain ⟨p, hp, rfl⟩ := List.mem_map.mp hi
      have hle := ih.2 p hp
      exact Nat.lt_of_lt_of_le (Nat.lt_add_of_pos_right hword) hle
    · intro p hp
      rcases List.mem_cons.mp hp with rfl | hp
      · exact Nat.le_add_right _ _
      · exact (Nat.le_add_right _ _).trans ((Nat.le_add_right _ _).trans (ih.2 p hp))

end SystemsLab.Search
