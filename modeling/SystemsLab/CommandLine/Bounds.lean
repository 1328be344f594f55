import SystemsLab.CommandLine.Lexing

namespace SystemsLab.CommandLine

open CLib Reader

def unclosed (cmd : Bytes) : Bool :=
  match (init.feedAll cmd).mode with
  | .quoted _ => true
  | _ => false

def isBlank (c : UInt8) : Bool := isSpace c && c != newline

def lineIsEmpty (line : Bytes) : Bool := line.all isSpace

def onlyComment (cmd : Bytes) : Bool :=
  match cmd.dropWhile isBlank with
  | [] => false
  | c :: rest => c == 35 && rest.all (!endsComment ·)

structure StaysInArray (cmd : Bytes) : Prop where
  access : ∀ (rest : Bytes) (cells : TokenArray) (i : ℤ),
    lexInto (cmd ++ 0 :: rest) cells ≠ .error (.token i)
  ends : ∀ (rest : Bytes) (cells tokens : TokenArray) (status : ℕ),
    lexInto (cmd ++ 0 :: rest) cells = .ok (status, tokens) →
      ∃ n < maxTokens, tokens n = none ∧ ∀ i < n, tokens i ≠ none

variable {cmd s rest : Bytes} {cells tokenArray : TokenArray} {tokens : List Token} {c : UInt8}
  {r : Reader} {n status : ℕ} {i : ℤ}

lemma isBlank_iff : isBlank c = true ↔ isSpace c = true ∧ c ≠ newline := by
  simp [isBlank]

lemma feed_nul (r : Reader) : r.feed 0 =
    match r.mode with
    | .quoted _ => ⟨.between, r.tokens⟩
    | .full => r
    | _ => ⟨.ended, r.tokens⟩ := by
  obtain ⟨mode, tokens⟩ := r
  cases mode with
  | quoted q => simp [feed]
  | out | between | word | comment | full | ended => rfl

lemma result_char_iff :
    (∃ i, r.result cells n = .error (.char i)) ↔ r.mode ≠ .ended ∧ r.mode ≠ .full := by
  rw [Reader.result]
  cases r.mode with
  | ended =>
    simp only
    split_ifs <;> simp
  | full => simp
  | between | out | word | quoted q | comment => simp

theorem reads_char_iff (cmd : Bytes) (cells : TokenArray) :
    (∀ i, lexInto (cmd ++ [0]) cells ≠ .error (.char i)) ↔ unclosed cmd = false := by
  rw [lexInto_eq, feedAll_append, ← not_exists, result_char_iff, unclosed]
  change ¬(((init.feedAll cmd).feed 0).mode ≠ .ended ∧ ((init.feedAll cmd).feed 0).mode ≠ .full) ↔ _
  rw [feed_nul]
  cases hmode : (init.feedAll cmd).mode with
  | quoted q => simp
  | between | out | word | comment | full | ended => simp [hmode]

lemma result_token_iff : r.result cells n = .error (.token i) ↔
    i = -1 ∧ r.mode = .ended ∧ r.tokens = [] := by
  rw [Reader.result]
  cases r.mode with
  | ended =>
    simp only
    split_ifs with hnil
    · simp [hnil, eq_comm]
    · simp [hnil]
  | full | between | out | word | quoted q | comment => simp

lemma result_ok (h : r.result cells n = .ok (status, tokenArray)) :
    tokenArray = Function.update (store cells r.tokens) r.tokens.length none := by
  rw [Reader.result] at h
  cases hmode : r.mode with
  | ended =>
    simp only [hmode] at h
    split_ifs at h
    · cases h
      rfl
    · cases h
      rfl
  | full =>
    simp only [hmode] at h
    cases h
    rfl
  | between | out | word | quoted q | comment =>
    simp only [hmode] at h
    cases h

lemma begin_nil (h : (begin [] c).tokens = []) : c = 35 := by
  rw [begin] at h
  cases hcase : lexCase c with
  | comment => exact hash_of_comment hcase
  | var | home | sep | pipe | redirectIn | redirectOut | background | quote | word =>
    rw [hcase] at h
    cases h

lemma tokens_eq_nil_of_feedAll (hroom : r.tokens.length < maxTokens)
    (h : (r.feedAll s).tokens = []) : r.tokens = [] := by
  have hle := (feedAll_length_le (s := s) hroom).1
  rw [h] at hle
  exact List.eq_nil_of_length_eq_zero (Nat.le_zero.mp hle)

lemma start_endsComment (hc : endsComment c = true) : start [] c = ⟨.between, [⟨.sep, [c]⟩]⟩ := by
  simp only [endsComment, Bool.or_eq_true, beq_iff_eq] at hc
  rcases hc with rfl | rfl <;> rfl

lemma all_of_feedAll_comment (hzero : (0 : UInt8) ∉ s)
    (h : (feedAll ⟨.comment, []⟩ s).tokens = []) : s.all (!endsComment ·) = true := by
  induction s with
  | nil => rfl
  | cons c s ih =>
    rw [List.mem_cons, not_or] at hzero
    rw [feedAll_cons, feed] at h
    simp only [or_iff_left (Ne.symm hzero.1)] at h
    by_cases hc : endsComment c = true
    · rw [if_pos hc, start_endsComment hc] at h
      cases tokens_eq_nil_of_feedAll (by simp only [maxTokens, List.length_singleton]; omega) h
    · rw [if_neg hc] at h
      simp only [List.all_cons, hc, ih hzero.2 h]
      rfl

lemma onlyComment_of_nil (hzero : (0 : UInt8) ∉ cmd) (hline : lineIsEmpty cmd = false)
    (h : (init.feedAll cmd).tokens = []) : onlyComment cmd = true := by
  rw [onlyComment]
  induction cmd with
  | nil => cases hline
  | cons c s ih =>
    rw [List.mem_cons, not_or] at hzero
    have hne := Ne.symm hzero.1
    rw [feedAll_cons] at h
    change (feedAll (start [] c) s).tokens = [] at h
    by_cases hblank : isBlank c = true
    · have hspace := isBlank_iff.mp hblank
      rw [start, if_neg hne, if_pos hspace] at h
      rw [List.dropWhile_cons_of_pos hblank]
      refine ih hzero.2 ?_ h
      rw [lineIsEmpty, List.all_cons, hspace.1] at hline
      exact hline
    · rw [start_eq hne (fun hspace => hblank (isBlank_iff.mpr hspace)) (by decide)] at h
      have hbegin : (begin [] c).tokens.length < maxTokens := (begin_length_le (by decide)).2
      obtain rfl := begin_nil (tokens_eq_nil_of_feedAll hbegin h)
      rw [List.dropWhile_cons_of_neg hblank]
      simp only [all_of_feedAll_comment hzero.2 h]
      rfl

lemma feedAll_comment_of_all (hzero : (0 : UInt8) ∉ s) (h : s.all (!endsComment ·) = true) :
    feedAll ⟨.comment, []⟩ s = ⟨.comment, []⟩ := by
  induction s with
  | nil => rfl
  | cons c s ih =>
    rw [List.mem_cons, not_or] at hzero
    simp only [List.all_cons, Bool.and_eq_true, Bool.not_eq_true'] at h
    rw [feedAll_cons, feed]
    simp only [or_iff_left (Ne.symm hzero.1), h.1]
    exact ih hzero.2 (by simpa using h.2)

lemma feedAll_of_onlyComment (hzero : (0 : UInt8) ∉ cmd) (h : onlyComment cmd = true) :
    init.feedAll cmd = ⟨.comment, []⟩ := by
  rw [onlyComment] at h
  induction cmd with
  | nil => cases h
  | cons c s ih =>
    by_cases hblank : isBlank c = true
    · have hspace := isBlank_iff.mp hblank
      rw [List.dropWhile_cons_of_pos hblank] at h
      have hne : c ≠ 0 := by
        rintro rfl
        cases hblank
      rw [feedAll_cons]
      change feedAll (start [] c) s = _
      rw [start, if_neg hne, if_pos hspace]
      exact ih (List.not_mem_of_not_mem_cons hzero) h
    · rw [List.dropWhile_cons_of_neg hblank] at h
      simp only [Bool.and_eq_true, beq_iff_eq] at h
      obtain ⟨rfl, hall⟩ := h
      exact feedAll_comment_of_all (List.not_mem_of_not_mem_cons hzero) hall

theorem reads_char_quote :
    ¬∀ (cmd : Bytes) (cells : TokenArray), (0 : UInt8) ∉ cmd →
      ∀ i, lexInto (cmd ++ [0]) cells ≠ .error (.char i) := by
  intro h
  apply h [34] (fun _ => none) (by decide) 2
  rw [lexInto_eq]
  rfl

theorem staysInArray_iff (hzero : (0 : UInt8) ∉ cmd) (hline : lineIsEmpty cmd = false) :
    StaysInArray cmd ↔ onlyComment cmd = false := by
  constructor
  · intro h
    rw [Bool.eq_false_iff]
    intro hcomment
    apply h.access [] (fun _ => none) (-1)
    rw [lexInto_eq, feedAll_append, feedAll_of_onlyComment hzero hcomment]
    rfl
  · intro hcomment
    constructor
    · intro rest cells i herror
      rw [lexInto_eq, result_token_iff, feedAll_append] at herror
      obtain ⟨-, -, hnil⟩ := herror
      have hroom := (feedAll_length_le (r := init) (s := cmd) (by decide)).2
      have hprefix := tokens_eq_nil_of_feedAll hroom hnil
      rw [onlyComment_of_nil hzero hline hprefix] at hcomment
      cases hcomment
    · intro rest cells tokens status hok
      rw [lexInto_eq] at hok
      have hroom := (feedAll_length_le (r := init) (s := cmd ++ 0 :: rest) (by decide)).2
      generalize init.feedAll (cmd ++ 0 :: rest) = r at hok hroom
      rw [result_ok hok]
      refine ⟨r.tokens.length, hroom, Function.update_self .., ?_⟩
      intro i hi
      rw [Function.update_of_ne hi.ne, store, List.getElem?_eq_getElem hi]
      exact Option.some_ne_none _

theorem staysInArray_composed : StaysInArray (CLib.ascii "a b | c > d ; e # f") :=
  (staysInArray_iff (by decide) (by decide)).mpr (by decide)

theorem staysInArray_hash :
    ¬∀ cmd : Bytes, (0 : UInt8) ∉ cmd → lineIsEmpty cmd = false → StaysInArray cmd := by
  intro h
  apply (h [35] (by decide) (by decide)).access [] (fun _ => none) (-1)
  rw [lexInto_eq]
  rfl

end SystemsLab.CommandLine
