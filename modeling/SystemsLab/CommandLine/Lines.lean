import SystemsLab.CommandLine.Lexer

namespace SystemsLab.CommandLine

open CLib

variable {tokens tokens' pre : List Token} {token : Option Token} {c d : UInt8}
  {s t rest : Bytes} {first : Bool} {p : UInt8 → Bool}

lemma dropWhile_append_stop (hp : p d = false) :
    (s ++ d :: t).dropWhile p = s.dropWhile p ++ d :: t := by
  induction s with
  | nil => simp [hp]
  | cons c s ih =>
    by_cases hc : p c = true
    · simpa [hc] using ih
    · simp [hc]

lemma takeWhile_append_stop (hp : p d = false) :
    (s ++ d :: t).takeWhile p = s.takeWhile p := by
  induction s with
  | nil => simp [hp]
  | cons c s ih =>
    by_cases hc : p c = true
    · simpa [hc] using ih
    · simp [hc]

lemma dropWhile_append_found (h : s.dropWhile p = d :: rest) :
    (s ++ t).dropWhile p = d :: (rest ++ t) ∧ (s ++ t).takeWhile p = s.takeWhile p := by
  induction s with
  | nil => cases h
  | cons c s ih =>
    by_cases hc : p c = true
    · rw [List.dropWhile_cons_of_pos hc] at h
      obtain ⟨hdrop, htake⟩ := ih h
      simp [hc, hdrop, htake]
    · rw [List.dropWhile_cons_of_neg hc] at h
      obtain ⟨rfl, rfl⟩ := List.cons.inj h
      simp [hc]

lemma lexFrom_nil : lexFrom tokens [] = .ok tokens := by rw [lexFrom]

lemma lexFrom_space (hspace : isSpace c = true ∧ c ≠ newline) :
    lexFrom tokens (c :: s) = lexFrom tokens s := by
  rw [lexFrom, if_pos hspace]

lemma lexFrom_full (hspace : ¬(isSpace c = true ∧ c ≠ newline))
    (hfull : tokens.length ≥ maxTokens - 1) :
    lexFrom tokens (c :: s) = .error .tooManyTokens := by
  rw [lexFrom, if_neg hspace, if_pos hfull]

lemma lexFrom_char (hspace : ¬(isSpace c = true ∧ c ≠ newline))
    (hroom : ¬tokens.length ≥ maxTokens - 1)
    (hchar : lexChar (startsCommand tokens) c s = .ok (token, rest)) :
    lexFrom tokens (c :: s) = lexFrom (tokens ++ token.toList) rest := by
  rw [lexFrom, if_neg hspace, if_neg hroom]
  split
  · next herror =>
    rw [hchar] at herror
    cases herror
  · next hok =>
    rw [hchar] at hok
    obtain ⟨rfl, rfl⟩ := Prod.mk.inj (Except.ok.inj hok)
    rfl

lemma lexFrom_token {next : Token} (hspace : ¬(isSpace c = true ∧ c ≠ newline))
    (hroom : ¬tokens.length ≥ maxTokens - 1)
    (hchar : lexChar (startsCommand tokens) c s = .ok (some next, rest)) :
    lexFrom tokens (c :: s) = lexFrom (tokens ++ [next]) rest :=
  lexFrom_char hspace hroom hchar

lemma lexFrom_length_le (h : lexFrom tokens s = .ok tokens') :
    tokens.length ≤ tokens'.length := by
  fun_induction lexFrom tokens s with
  | case1 tokens =>
    cases h
    exact le_rfl
  | case2 tokens c s hspace ih => exact ih h
  | case3 => cases h
  | case4 => cases h
  | case5 tokens c s hspace hroom token rest hchar ih =>
    have hle := ih h
    rw [List.length_append] at hle
    omega

lemma lexChar_append (h : lexChar first c s = .ok (token, rest)) (t : Bytes) :
    lexChar first c (s ++ semicolon :: t) = .ok (token, rest ++ semicolon :: t) := by
  rw [lexChar] at h ⊢
  cases hc : lexCase c with
  | comment =>
    rw [hc] at h
    cases h
    rw [dropWhile_append_stop (p := (!endsComment ·)) (by decide)]
  | var | word =>
    rw [hc] at h
    cases h
    simp only [dropWhile_append_stop (p := (!isSpecialChar ·)) (d := semicolon) (by decide),
      takeWhile_append_stop (p := (!isSpecialChar ·)) (d := semicolon) (by decide)]
  | home | sep | pipe | redirectIn | background =>
    rw [hc] at h
    cases h
    rfl
  | redirectOut =>
    simp only [hc] at h ⊢
    by_cases hnext : s.head? = some 62
    · obtain ⟨s', rfl⟩ := List.head?_eq_some_iff.mp hnext
      rw [if_pos hnext] at h
      cases h
      rw [List.cons_append, List.head?_cons, if_pos rfl]
      rfl
    · have hnext' : (s ++ semicolon :: t).head? ≠ some 62 := by
        cases s with
        | nil => exact fun h => absurd (Option.some.inj h) (by decide)
        | cons d s => exact hnext
      rw [if_neg hnext] at h
      cases h
      rw [if_neg hnext']
  | quote =>
    simp only [hc] at h ⊢
    cases hd : s.dropWhile (· ≠ c) with
    | nil =>
      rw [hd] at h
      cases h
    | cons d rest' =>
      rw [hd] at h
      cases h
      obtain ⟨hdrop, htake⟩ := dropWhile_append_found (t := semicolon :: t) hd
      rw [hdrop, htake]

lemma lexFrom_semicolon (hroom : ¬tokens.length ≥ maxTokens - 1) :
    lexFrom tokens (semicolon :: t) = lexFrom (tokens ++ [sepToken]) t :=
  lexFrom_char (c := semicolon) (by decide) hroom rfl

lemma lexFrom_append (h : lexFrom tokens s = .ok tokens') (hroom : ¬tokens'.length ≥ maxTokens - 1)
    (t : Bytes) : lexFrom tokens (s ++ semicolon :: t) = lexFrom (tokens' ++ [sepToken]) t := by
  fun_induction lexFrom tokens s with
  | case1 tokens =>
    cases h
    exact lexFrom_semicolon hroom
  | case2 tokens c s hspace ih =>
    rw [List.cons_append, lexFrom_space hspace]
    exact ih h
  | case3 => cases h
  | case4 => cases h
  | case5 tokens c s hspace hroom' token rest hchar ih =>
    rw [List.cons_append, lexFrom_char hspace hroom' (lexChar_append hchar t)]
    exact ih h

lemma lexFrom_append_full (h : lexFrom tokens s = .ok tokens')
    (hfull : tokens'.length ≥ maxTokens - 1) (t : Bytes) :
    lexFrom tokens (s ++ semicolon :: t) = .error .tooManyTokens := by
  fun_induction lexFrom tokens s with
  | case1 tokens =>
    cases h
    exact lexFrom_full (c := semicolon) (by decide) hfull
  | case2 tokens c s hspace ih =>
    rw [List.cons_append, lexFrom_space hspace]
    exact ih h
  | case3 => cases h
  | case4 => cases h
  | case5 tokens c s hspace hroom' token rest hchar ih =>
    rw [List.cons_append, lexFrom_char hspace hroom' (lexChar_append hchar t)]
    exact ih h

lemma lexEnd_ok (h : lexEnd tokens = .ok tokens') : tokens = tokens' := by
  rw [lexEnd] at h
  split at h
  · cases h
  · split_ifs at h
    exact Except.ok.inj h

lemma lexEnd_append (h : lexEnd tokens = .ok tokens) :
    lexEnd (pre ++ sepToken :: tokens) = .ok (pre ++ sepToken :: tokens) := by
  rw [lexEnd] at h ⊢
  cases hl : tokens.getLast? with
  | none =>
    rw [hl] at h
    cases h
  | some last =>
    rw [hl] at h
    have hlast : (pre ++ sepToken :: tokens).getLast? = some last := by
      rw [List.getLast?_append, List.getLast?_cons, hl]
      rfl
    rw [hlast]
    simp only at h ⊢
    split_ifs at h ⊢ with hc
    rfl

lemma startsCommand_append (hpre : startsCommand pre = true) :
    startsCommand (pre ++ tokens) = startsCommand tokens := by
  rw [startsCommand, List.getLast?_append]
  cases hl : tokens.getLast? with
  | none =>
    rw [List.getLast?_eq_none_iff.mp hl]
    exact hpre
  | some last => rw [startsCommand, hl, Option.some_or]

lemma lexFrom_after (hpre : startsCommand pre = true) (h : lexFrom tokens s = .ok tokens') :
    lexFrom (pre ++ tokens) s = .ok (pre ++ tokens') ∨
      lexFrom (pre ++ tokens) s = .error .tooManyTokens := by
  fun_induction lexFrom tokens s with
  | case1 tokens =>
    cases h
    exact Or.inl lexFrom_nil
  | case2 tokens c s hspace ih =>
    rw [lexFrom_space hspace]
    exact ih h
  | case3 => cases h
  | case4 => cases h
  | case5 tokens c s hspace hroom token rest hchar ih =>
    by_cases hfull : (pre ++ tokens).length ≥ maxTokens - 1
    · exact Or.inr (lexFrom_full hspace hfull)
    · rw [← startsCommand_append hpre] at hchar
      rw [lexFrom_char hspace hfull hchar, List.append_assoc]
      exact ih h

lemma lexFrom_after_room (hpre : startsCommand pre = true) (h : lexFrom tokens s = .ok tokens')
    (hroom : pre.length + tokens'.length < maxTokens - 1) :
    lexFrom (pre ++ tokens) s = .ok (pre ++ tokens') := by
  fun_induction lexFrom tokens s with
  | case1 tokens =>
    cases h
    exact lexFrom_nil
  | case2 tokens c s hspace ih =>
    rw [lexFrom_space hspace]
    exact ih h
  | case3 => cases h
  | case4 => cases h
  | case5 tokens c s hspace hroom' token rest hchar ih =>
    have hle := lexFrom_length_le h
    rw [List.length_append] at hle
    have hfull : ¬(pre ++ tokens).length ≥ maxTokens - 1 := by
      rw [List.length_append]
      omega
    rw [← startsCommand_append hpre] at hchar
    rw [lexFrom_char hspace hfull hchar, List.append_assoc]
    exact ih h

lemma lex_ok {cmd : Bytes} (h : lex cmd = .ok tokens) :
    lexFrom [] cmd = .ok tokens ∧ lexEnd tokens = .ok tokens := by
  rw [lex] at h
  cases hf : lexFrom [] cmd with
  | error e =>
    rw [hf] at h
    cases h
  | ok tokens' =>
    rw [hf] at h
    change lexEnd tokens' = _ at h
    have hsame : tokens' = tokens := lexEnd_ok h
    rw [hsame] at h ⊢
    exact ⟨rfl, h⟩

lemma lex_semicolon {a b : Bytes} {ta tb : List Token} (ha : lex a = .ok ta) (hb : lex b = .ok tb) :
    lex (a ++ semicolon :: b) = .ok (ta ++ sepToken :: tb) ∨
      lex (a ++ semicolon :: b) = .error .tooManyTokens := by
  obtain ⟨hfa, -⟩ := lex_ok ha
  obtain ⟨hfb, heb⟩ := lex_ok hb
  by_cases hfull : ta.length ≥ maxTokens - 1
  · apply Or.inr
    rw [lex, lexFrom_append_full hfa hfull]
    rfl
  · have hpre : startsCommand (ta ++ [sepToken]) = true := by simp [startsCommand, sepToken]
    have hall := lexFrom_append hfa hfull b
    rcases lexFrom_after hpre hfb with hok | herror
    · apply Or.inl
      rw [List.append_nil] at hok
      rw [lex, hall, hok, List.append_assoc]
      change lexEnd (ta ++ sepToken :: tb) = _
      exact lexEnd_append heb
    · apply Or.inr
      rw [List.append_nil] at herror
      rw [lex, hall, herror]
      rfl

lemma lex_semicolon_room {a b : Bytes} {ta tb : List Token} (ha : lex a = .ok ta)
    (hb : lex b = .ok tb) (hroom : ta.length + 1 + tb.length < maxTokens - 1) :
    lex (a ++ semicolon :: b) = .ok (ta ++ sepToken :: tb) := by
  obtain ⟨hfa, -⟩ := lex_ok ha
  obtain ⟨hfb, heb⟩ := lex_ok hb
  have hfull : ¬ta.length ≥ maxTokens - 1 := by omega
  have hpre : startsCommand (ta ++ [sepToken]) = true := by simp [startsCommand, sepToken]
  have hlength : (ta ++ [sepToken]).length + tb.length < maxTokens - 1 := by
    rwa [List.length_append, List.length_singleton]
  have hall := lexFrom_append hfa hfull b
  have hafter := lexFrom_after_room hpre hfb hlength
  rw [List.append_nil] at hafter
  rw [lex, hall, hafter, List.append_assoc]
  change lexEnd (ta ++ sepToken :: tb) = _
  exact lexEnd_append heb

end SystemsLab.CommandLine
