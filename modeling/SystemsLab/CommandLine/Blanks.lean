import SystemsLab.CommandLine.Bounds
import Mathlib.Data.List.Forall2

namespace SystemsLab.CommandLine

open CLib Reader

def Respaced : Bytes → Bytes → Prop :=
  List.Forall₂ fun c c' => c = c' ∨ isBlank c = true ∧ isBlank c' = true

def isQuote (c : UInt8) : Bool := c == 34 || c == 39

variable {s s' : Bytes} {cells tokenArray : TokenArray} {tokens : List Token} {c c' : UInt8}
  {r r' : Reader} {n i : ℕ} {f : Token → Token} {t : Token} {data : Bytes}

lemma feed_blank (hword : r.mode ≠ .word) (hquoted : ∀ q, r.mode ≠ .quoted q)
    (hc : isBlank c = true) (hc' : isBlank c' = true) : r.feed c = r.feed c' := by
  have hstart : ∀ d, isBlank d = true → start r.tokens d = ⟨.between, r.tokens⟩ := by
    intro d hd
    have hne : d ≠ 0 := by
      rintro rfl
      cases hd
    rw [start, if_neg hne, if_pos (isBlank_iff.mp hd)]
  have hplain : ∀ d, isBlank d = true → d ≠ 62 ∧ ¬(endsComment d = true ∨ d = 0) := by
    intro d hd
    constructor
    · rintro rfl
      cases hd
    · rintro (hend | rfl)
      · simp only [endsComment, Bool.or_eq_true, beq_iff_eq] at hend
        rcases hend with rfl | rfl <;> cases hd
      · cases hd
  rw [feed, feed]
  cases hmode : r.mode with
  | word => exact absurd hmode hword
  | quoted q => exact absurd hmode (hquoted q)
  | between => exact (hstart c hc).trans (hstart c' hc').symm
  | out =>
    simp only [(hplain c hc).1, (hplain c' hc').1, if_false]
    exact (hstart c hc).trans (hstart c' hc').symm
  | comment => simp only [(hplain c hc).2, (hplain c' hc').2, if_false]
  | full | ended => rfl

lemma feed_not_quoted (hquoted : ∀ q, r.mode ≠ .quoted q) (hc : isQuote c = false) (q : UInt8) :
    (r.feed c).mode ≠ .quoted q := by
  have hstart : (start r.tokens c).mode ≠ .quoted q := by
    rw [start]
    split_ifs
    · simp
    · simp
    · simp
    · rw [begin]
      cases hcase : lexCase c with
      | quote =>
        exfalso
        grind [lexCase, isQuote]
      | _ => simp
  rw [feed]
  cases hmode : r.mode with
  | quoted q => exact absurd hmode (hquoted q)
  | between => exact hstart
  | full | ended => simp [hmode]
  | out =>
    simp only
    split_ifs
    · simp
    · exact hstart
  | word =>
    simp only
    split_ifs
    · exact hstart
    · simp
  | comment =>
    simp only
    split_ifs
    · exact hstart
    · simp [hmode]

def OutsideWords (r : Reader) (s s' : Bytes) : Prop :=
  ∀ i, s[i]? ≠ s'[i]? → (r.feedAll (s.take i)).mode ≠ .word

lemma OutsideWords.tail (h : OutsideWords r (c :: s) (c' :: s')) :
    OutsideWords (r.feed c) s s' :=
  fun i hi => h (i + 1) hi

lemma feedAll_respaced (hspaced : Respaced s s') (hquotes : s.any isQuote = false)
    (hquoted : ∀ q, r.mode ≠ .quoted q) (h : OutsideWords r s s') :
    r.feedAll s = r.feedAll s' := by
  induction hspaced generalizing r with
  | nil => rfl
  | @cons c c' s s' hc _ ih =>
    rw [List.any_cons, Bool.or_eq_false_iff] at hquotes
    have hsame : r.feed c = r.feed c' := by
      by_cases heq : c = c'
      · rw [heq]
      · have hblank := hc.resolve_left heq
        have hword : r.mode ≠ .word := h 0 fun hsome => heq (Option.some.inj hsome)
        exact feed_blank hword hquoted hblank.1 hblank.2
    rw [feedAll_cons, feedAll_cons, ← hsame]
    exact ih hquotes.2 (feed_not_quoted hquoted hquotes.1) h.tail

def Settled (n : ℕ) (t : Token) (r : Reader) : Prop :=
  r.tokens[n]? = some t ∧
    (r.tokens.length = n + 1 → r.mode ≠ .word ∧ r.mode ≠ .out ∧ ∀ q, r.mode ≠ .quoted q)

def Begun (n : ℕ) (data : Bytes) (r : Reader) : Prop :=
  (∃ t, r.tokens[n]? = some t ∧ data <+: t.data) ∧ (r.tokens.length = n + 1 → r.mode ≠ .out)

lemma revise_getElem? (hn : n + 1 ≠ tokens.length) : (revise f tokens)[n]? = tokens[n]? := by
  rcases List.eq_nil_or_concat tokens with rfl | ⟨front, last, rfl⟩
  · rfl
  · rw [List.concat_eq_append] at hn ⊢
    rw [revise_append]
    rw [List.length_append, List.length_singleton] at hn
    rcases Nat.lt_or_gt_of_ne hn with hlt | hgt
    · rw [List.getElem?_append_left (by omega), List.getElem?_append_left (by omega)]
    · rw [List.getElem?_eq_none (by simp; omega), List.getElem?_eq_none (by simp; omega)]

lemma revise_getElem?_last (hn : n + 1 = tokens.length) (h : tokens[n]? = some t) :
    (revise f tokens)[n]? = some (f t) := by
  rcases List.eq_nil_or_concat tokens with rfl | ⟨front, last, rfl⟩
  · cases h
  · rw [List.concat_eq_append] at hn h ⊢
    rw [List.length_append, List.length_singleton, Nat.add_right_cancel_iff] at hn
    subst hn
    rw [revise_append]
    simp only [List.getElem?_concat_length, Option.some.injEq] at h ⊢
    rw [h]

lemma start_getElem? (h : tokens[n]? = some t) :
    (start tokens c).tokens[n]? = some t ∧
      ((start tokens c).tokens.length = n + 1 →
        (start tokens c).mode ≠ .word ∧ (start tokens c).mode ≠ .out ∧
          ∀ q, (start tokens c).mode ≠ .quoted q) := by
  obtain ⟨hn, -⟩ := List.getElem?_eq_some_iff.mp h
  have hmore : ∀ u : Token, (tokens ++ [u])[n]? = some t := by
    intro u
    rw [List.getElem?_append_left hn, h]
  have hlength : ∀ u : Token, (tokens ++ [u]).length ≠ n + 1 := by
    intro u
    rw [List.length_append, List.length_singleton]
    omega
  rw [start]
  split_ifs
  · exact ⟨h, by simp⟩
  · exact ⟨h, by simp⟩
  · exact ⟨h, by simp⟩
  · rw [begin]
    cases lexCase c with
    | comment => exact ⟨h, by simp⟩
    | var | home | sep | pipe | redirectIn | redirectOut | background | quote | word =>
      exact ⟨hmore _, fun heq => absurd heq (hlength _)⟩

lemma Settled.feed (h : Settled n t r) (c : UInt8) : Settled n t (r.feed c) := by
  obtain ⟨hget, hmode⟩ := h
  have hstart := start_getElem? (c := c) hget
  have hgrow : (r.mode = .word ∨ r.mode = .out ∨ ∃ q, r.mode = .quoted q) →
      n + 1 ≠ r.tokens.length := by
    intro hinside hlength
    obtain ⟨hword, hout, hquoted⟩ := hmode hlength.symm
    rcases hinside with hm | hm | ⟨q, hm⟩
    · exact hword hm
    · exact hout hm
    · exact hquoted q hm
  rw [Reader.feed]
  cases hm : r.mode with
  | between => exact hstart
  | full | ended => exact ⟨hget, fun _ => by simp [hm]⟩
  | out =>
    have hne := hgrow (Or.inr (Or.inl hm))
    simp only
    split_ifs
    · exact ⟨(revise_getElem? hne).trans hget, fun _ => by simp⟩
    · exact hstart
  | word =>
    have hne := hgrow (Or.inl hm)
    simp only
    split_ifs
    · exact hstart
    · refine ⟨(revise_getElem? hne).trans hget, fun hlength => ?_⟩
      rw [extend, revise_length] at hlength
      exact absurd hlength.symm hne
  | quoted q =>
    have hne := hgrow (Or.inr (Or.inr ⟨q, hm⟩))
    simp only
    split_ifs
    · exact ⟨hget, fun _ => by simp⟩
    · refine ⟨(revise_getElem? hne).trans hget, fun hlength => ?_⟩
      rw [extend, revise_length] at hlength
      exact absurd hlength.symm hne
  | comment =>
    simp only
    split_ifs
    · exact hstart
    · exact ⟨hget, fun _ => by simp [hm]⟩

lemma Begun.feed (h : Begun n data r) (c : UInt8) : Begun n data (r.feed c) := by
  obtain ⟨⟨t, hget, hprefix⟩, hout⟩ := h
  have hstart : Begun n data (start r.tokens c) := by
    obtain ⟨hsame, hinside⟩ := start_getElem? (c := c) hget
    exact ⟨⟨t, hsame, hprefix⟩, fun hlength => (hinside hlength).2.1⟩
  have hextend : ∀ m : Mode, m ≠ .out → Begun n data ⟨m, extend r.tokens c⟩ := by
    intro m hm
    refine ⟨?_, fun _ => hm⟩
    by_cases hn : n + 1 = r.tokens.length
    · exact ⟨_, revise_getElem?_last hn hget, hprefix.trans (List.prefix_append _ _)⟩
    · exact ⟨t, (revise_getElem? hn).trans hget, hprefix⟩
  rw [Reader.feed]
  cases hm : r.mode with
  | between => exact hstart
  | full | ended => exact ⟨⟨t, hget, hprefix⟩, fun _ => by simp [hm]⟩
  | out =>
    have hne : n + 1 ≠ r.tokens.length := fun hlength => hout hlength.symm hm
    simp only
    split_ifs
    · exact ⟨⟨t, (revise_getElem? hne).trans hget, hprefix⟩, fun _ => by simp⟩
    · exact hstart
  | word =>
    simp only
    split_ifs
    · exact hstart
    · exact hextend _ (by simp)
  | quoted q =>
    simp only
    split_ifs
    · exact ⟨⟨t, hget, hprefix⟩, fun _ => by simp⟩
    · exact hextend _ (by simp)
  | comment =>
    simp only
    split_ifs
    · exact hstart
    · exact ⟨⟨t, hget, hprefix⟩, fun _ => by simp [hm]⟩

lemma Settled.feedAll (h : Settled n t r) (s : Bytes) : Settled n t (r.feedAll s) := by
  induction s generalizing r with
  | nil => exact h
  | cons c s ih => exact ih (h.feed c)

lemma Begun.feedAll (h : Begun n data r) (s : Bytes) : Begun n data (r.feedAll s) := by
  induction s generalizing r with
  | nil => exact h
  | cons c s ih => exact ih (h.feed c)

def HasWord (r : Reader) : Prop := r.mode = .word → r.tokens ≠ []

lemma HasWord.feed (h : HasWord r) (c : UInt8) : HasWord (r.feed c) := by
  have hstart : HasWord (start r.tokens c) := by
    rw [start]
    split_ifs
    · simp [HasWord]
    · simp [HasWord]
    · simp [HasWord]
    · rw [begin]
      cases lexCase c <;> simp [HasWord]
  rw [Reader.feed]
  cases hm : r.mode with
  | between => exact hstart
  | full | ended => simp [HasWord, hm]
  | out =>
    simp only
    split_ifs
    · simp [HasWord]
    · exact hstart
  | word =>
    simp only
    split_ifs
    · exact hstart
    · intro _ hnil
      have hlength := congrArg List.length hnil
      rw [extend, revise_length] at hlength
      exact h hm (List.eq_nil_of_length_eq_zero hlength)
  | quoted q =>
    simp only
    split_ifs <;> simp [HasWord]
  | comment =>
    simp only
    split_ifs
    · exact hstart
    · simp [HasWord, hm]

def Apart (r r' : Reader) : Prop :=
  ∃ n, (∃ t data, Settled n t r ∧ Begun n data r' ∧ ¬data <+: t.data) ∨
    (∃ t data, Begun n data r ∧ Settled n t r' ∧ ¬data <+: t.data) ∨
    ∃ data data', Begun n data r ∧ Begun n data' r' ∧ ¬data <+: data' ∧ ¬data' <+: data

lemma Apart.feedAll (h : Apart r r') (s s' : Bytes) : Apart (r.feedAll s) (r'.feedAll s') := by
  obtain ⟨n, ⟨t, data, ht, hd, hne⟩ | ⟨t, data, hd, ht, hne⟩ | ⟨d, d', hd, hd', hne, hne'⟩⟩ := h
  · exact ⟨n, Or.inl ⟨t, data, ht.feedAll s, hd.feedAll s', hne⟩⟩
  · exact ⟨n, Or.inr (Or.inl ⟨t, data, hd.feedAll s, ht.feedAll s', hne⟩)⟩
  · exact ⟨n, Or.inr (Or.inr ⟨d, d', hd.feedAll s, hd'.feedAll s', hne, hne'⟩)⟩

lemma Apart.exists_ne (h : Apart r r') :
    ∃ (n : ℕ) (t t' : Token), r.tokens[n]? = some t ∧ r'.tokens[n]? = some t' ∧ t ≠ t' := by
  obtain ⟨n, ⟨t, data, ht, hd, hne⟩ | ⟨t, data, hd, ht, hne⟩ | ⟨d, d', hd, hd', hne, hne'⟩⟩ := h
  · obtain ⟨⟨t', hget, hprefix⟩, -⟩ := hd
    exact ⟨n, t, t', ht.1, hget, fun heq => hne (heq ▸ hprefix)⟩
  · obtain ⟨⟨t', hget, hprefix⟩, -⟩ := hd
    exact ⟨n, t', t, hget, ht.1, fun heq => hne (heq ▸ hprefix)⟩
  · obtain ⟨⟨t, hget, hprefix⟩, -⟩ := hd
    obtain ⟨⟨t', hget', hprefix'⟩, -⟩ := hd'
    refine ⟨n, t, t', hget, hget', ?_⟩
    rintro rfl
    rcases List.prefix_or_prefix_of_prefix hprefix hprefix' with hle | hle
    · exact hne hle
    · exact hne' hle

lemma plain_of_blank (hc : isBlank c = true) (hne : c ≠ 32) : isSpecialChar c = false := by
  simp only [isBlank, isSpace, newline, Bool.and_eq_true, Bool.or_eq_true] at hc
  grind [isSpecialChar]

lemma feed_blank_apart (hword : r.mode = .word) (hhas : HasWord r) (hc : isBlank c = true)
    (hc' : isBlank c' = true) (hne : c ≠ c') : Apart (r.feed c) (r.feed c') := by
  obtain ⟨front, ⟨type, data⟩, htokens⟩ : ∃ front t, r.tokens = front ++ [t] :=
    ⟨_, _, (List.dropLast_append_getLast (hhas hword)).symm⟩
  have hspace : Settled front.length ⟨type, data⟩ (r.feed 32) := by
    have hfeed : r.feed 32 = ⟨.between, r.tokens⟩ := by
      rw [Reader.feed, hword]
      rfl
    rw [hfeed, htokens]
    exact ⟨List.getElem?_concat_length, fun _ => by simp⟩
  have hgrow : ∀ d, isBlank d = true → d ≠ 32 →
      Begun front.length (data ++ [d]) (r.feed d) := by
    intro d hd hd32
    have hfeed : r.feed d = ⟨.word, front ++ [⟨type, data ++ [d]⟩]⟩ := by
      rw [Reader.feed, hword]
      simp only [plain_of_blank hd hd32, htokens, extend, revise_append]
      rfl
    rw [hfeed]
    exact ⟨⟨_, List.getElem?_concat_length, List.prefix_refl _⟩, fun _ => by simp⟩
  have hlonger : ∀ d : UInt8, ¬data ++ [d] <+: data := by
    intro d hprefix
    have hle := hprefix.length_le
    rw [List.length_append, List.length_singleton] at hle
    omega
  have hother : ∀ d d' : UInt8, d ≠ d' → ¬data ++ [d] <+: data ++ [d'] := by
    intro d d' hdd hprefix
    have heq := hprefix.eq_of_length (by simp)
    simp only [List.append_cancel_left_eq, List.cons.injEq, and_true] at heq
    exact hdd heq
  refine ⟨front.length, ?_⟩
  by_cases h32 : c = 32
  · subst h32
    exact Or.inl ⟨_, _, hspace, hgrow c' hc' (Ne.symm hne), hlonger c'⟩
  · by_cases h32' : c' = 32
    · subst h32'
      exact Or.inr (Or.inl ⟨_, _, hgrow c hc hne, hspace, hlonger c⟩)
    · exact Or.inr (Or.inr ⟨_, _, hgrow c hc h32, hgrow c' hc' h32', hother c c' hne,
        hother c' c (Ne.symm hne)⟩)

lemma feedAll_apart (hspaced : Respaced s s') (hquotes : s.any isQuote = false)
    (hquoted : ∀ q, r.mode ≠ .quoted q) (hhas : HasWord r) (h : ¬OutsideWords r s s') :
    Apart (r.feedAll s) (r.feedAll s') := by
  induction hspaced generalizing r with
  | nil => exact absurd (fun i hi => absurd rfl hi) h
  | @cons c c' s s' hc _ ih =>
    rw [List.any_cons, Bool.or_eq_false_iff] at hquotes
    have hnext : r.feed c = r.feed c' → ¬OutsideWords (r.feed c) s s' →
        Apart (r.feedAll (c :: s)) (r.feedAll (c' :: s')) := by
      intro hsame htail
      rw [feedAll_cons, feedAll_cons, ← hsame]
      exact ih hquotes.2 (feed_not_quoted hquoted hquotes.1) (hhas.feed c) htail
    by_cases heq : c = c'
    · subst heq
      refine hnext rfl fun htail => h ?_
      rintro (_ | i) hi
      · exact absurd rfl hi
      · exact htail i hi
    · have hblank := hc.resolve_left heq
      by_cases hword : r.mode = .word
      · exact (feed_blank_apart hword hhas hblank.1 hblank.2 heq).feedAll s s'
      · refine hnext (feed_blank hword hquoted hblank.1 hblank.2) fun htail => h ?_
        rintro (_ | i) hi
        · exact hword
        · exact htail i hi

lemma feedAll_not_quoted (hquotes : s.any isQuote = false) (hquoted : ∀ q, r.mode ≠ .quoted q)
    (q : UInt8) : (r.feedAll s).mode ≠ .quoted q := by
  induction s generalizing r with
  | nil => exact hquoted q
  | cons c s ih =>
    rw [List.any_cons, Bool.or_eq_false_iff] at hquotes
    exact ih hquotes.2 (feed_not_quoted hquoted hquotes.1)

lemma Respaced.any_isQuote (h : Respaced s s') : s.any isQuote = s'.any isQuote := by
  induction h with
  | nil => rfl
  | @cons c c' s s' hc _ ih =>
    have hnone : ∀ d, isBlank d = true → isQuote d = false := by
      intro d hd
      rw [Bool.eq_false_iff]
      intro hquote
      simp only [isQuote, Bool.or_eq_true, beq_iff_eq] at hquote
      rcases hquote with rfl | rfl <;> cases hd
    rw [List.any_cons, List.any_cons, ih]
    rcases hc with rfl | ⟨hc, hc'⟩
    · rfl
    · rw [hnone c hc, hnone c' hc']

lemma result_getElem? (cells : TokenArray) (i : ℕ) (hquoted : ∀ q, r.mode ≠ .quoted q)
    (hget : r.tokens[n]? = some t) :
    ∃ status tokenArray, (r.feed 0).result cells i = .ok (status, tokenArray) ∧
      tokenArray n = some t := by
  obtain ⟨hn, -⟩ := List.getElem?_eq_some_iff.mp hget
  have harray : Function.update (store cells r.tokens) r.tokens.length none n = some t := by
    rw [Function.update_of_ne hn.ne, store, hget]
    rfl
  have hne : r.tokens ≠ [] := List.ne_nil_of_length_pos (by omega)
  rw [feed_nul]
  cases hm : r.mode with
  | quoted q => exact absurd hm (hquoted q)
  | full =>
    simp only [Reader.result, hm]
    exact ⟨_, _, rfl, harray⟩
  | between | out | word | comment | ended =>
    simp only [Reader.result, if_neg hne]
    exact ⟨_, _, rfl, harray⟩

theorem lexInto_respaced_iff (hspaced : Respaced s s') (hquotes : s.any isQuote = false)
    (cells : TokenArray) :
    lexInto (s ++ [0]) cells = lexInto (s' ++ [0]) cells ↔ OutsideWords init s s' := by
  have hlength : (s ++ [0]).length = (s' ++ [0]).length := by
    rw [List.length_append, List.length_append, hspaced.length_eq]
  have hinit : ∀ q, init.mode ≠ .quoted q := by simp [init]
  rw [lexInto_eq, lexInto_eq, feedAll_append, feedAll_append, hlength]
  constructor
  · intro hsame
    by_contra hinside
    have hapart := feedAll_apart hspaced hquotes hinit (by simp [HasWord, init]) hinside
    obtain ⟨n, t, t', hget, hget', hne⟩ := hapart.exists_ne
    have hquotes' := hspaced.any_isQuote ▸ hquotes
    obtain ⟨status, a, hresult, ha⟩ := result_getElem? cells (s' ++ [0]).length
      (feedAll_not_quoted hquotes hinit) hget
    obtain ⟨status', a', hresult', ha'⟩ := result_getElem? cells
      (s' ++ [0]).length (feedAll_not_quoted hquotes' hinit) hget'
    have heq := (hresult.symm.trans hsame).trans hresult'
    obtain ⟨-, rfl⟩ := Prod.mk.inj (Except.ok.inj heq)
    exact hne (Option.some.inj (ha.symm.trans ha'))
  · intro houtside
    rw [feedAll_respaced hspaced hquotes hinit houtside]

theorem lexInto_respaced_tab :
    lexInto ([32, 97] ++ [0]) (fun _ => none) = lexInto ([9, 97] ++ [0]) (fun _ => none) ↔
      OutsideWords init [32, 97] [9, 97] :=
  lexInto_respaced_iff (.cons (Or.inr ⟨rfl, rfl⟩) (.cons (Or.inl rfl) .nil)) rfl _

theorem lexInto_tab_ne :
    ¬∀ (s s' : Bytes) (cells : TokenArray), (0 : UInt8) ∉ s → s.any isQuote = false →
      (35 : UInt8) ∉ s → Respaced s s' →
        lexInto (s ++ [0]) cells = lexInto (s' ++ [0]) cells := by
  intro h
  have hsame := h [97, 32, 98] [97, 9, 98] (fun _ => none) (by decide) rfl (by decide)
    (.cons (Or.inl rfl) (.cons (Or.inr ⟨rfl, rfl⟩) (.cons (Or.inl rfl) .nil)))
  rw [lexInto_eq, lexInto_eq] at hsame
  obtain ⟨-, harray⟩ := Prod.mk.inj (Except.ok.inj hsame)
  cases congrFun harray 0

end SystemsLab.CommandLine
