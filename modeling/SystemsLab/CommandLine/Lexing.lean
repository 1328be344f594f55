import SystemsLab.CommandLine.Reader

namespace SystemsLab.CommandLine

open CLib Reader

def store (cells : TokenArray) (tokens : List Token) : TokenArray :=
  fun i => tokens[i]?.or (cells i)

variable {mem s u v : Bytes} {cells : TokenArray} {tokens : List Token} {token : Token} {c : UInt8}
  {i n : ℕ} {p : UInt8 → Bool} {r : Reader}

lemma store_push : Function.update (store cells tokens) tokens.length (some token) =
    store cells (tokens ++ [token]) := by
  funext i
  rw [Function.update_apply, store, store]
  rcases lt_trichotomy i tokens.length with hlt | rfl | hgt
  · simp [hlt.ne, List.getElem?_append_left hlt]
  · simp
  · have hge : (tokens ++ [token]).length ≤ i := by simpa using Nat.succ_le_of_lt hgt
    simp [hgt.ne', List.getElem?_eq_none hge, List.getElem?_eq_none hgt.le]

lemma store_nil : store cells [] = cells := by
  funext i
  simp [store]

lemma push_store (hroom : tokens.length < maxTokens) :
    Cursor.push ⟨i, store cells tokens, tokens.length⟩ token =
      .ok ⟨i, store cells (tokens ++ [token]), (tokens ++ [token]).length⟩ := by
  rw [Cursor.push, writeToken, if_pos (by simp only; omega)]
  simp only [Except.map, Int.toNat_natCast, store_push, List.length_append, List.length_singleton]

lemma atCommand_store (hroom : tokens.length < maxTokens) :
    Cursor.atCommand ⟨i, store cells tokens, tokens.length⟩ = .ok (startsCommand tokens) := by
  rw [Cursor.atCommand]
  simp only
  cases htokens : tokens.getLast? with
  | none =>
    obtain rfl := List.getLast?_eq_none_iff.mp htokens
    rfl
  | some t =>
    obtain ⟨init, rfl⟩ := List.getLast?_eq_some_iff.mp htokens
    rw [if_neg (by simp), readToken, if_pos (by simp at hroom ⊢; omega)]
    simp [Except.map, store, startsCommand]

lemma skipWhile_eq (hi : i ≤ mem.length) :
    skipWhile mem p i =
      if (mem.drop i).dropWhile p = [] then .error (.char mem.length)
      else .ok (i + ((mem.drop i).takeWhile p).length) := by
  fun_induction skipWhile mem p i with
  | case1 i hc =>
    have hlen : i = mem.length := le_antisymm hi (List.getElem?_eq_none_iff.mp hc)
    simp [hlen]
  | case2 i c hc hp ih =>
    obtain ⟨hlt, hget⟩ := List.getElem?_eq_some_iff.mp hc
    rw [ih hlt, List.drop_eq_getElem_cons hlt, hget]
    simp only [List.dropWhile_cons_of_pos hp, List.takeWhile_cons_of_pos hp, List.length_cons,
      Nat.add_assoc, Nat.add_comm 1]
  | case3 i c hc hp =>
    obtain ⟨hlt, hget⟩ := List.getElem?_eq_some_iff.mp hc
    rw [List.drop_eq_getElem_cons hlt, hget]
    simp [hp]

lemma drop_add_takeWhile :
    mem.drop (i + ((mem.drop i).takeWhile p).length) = (mem.drop i).dropWhile p := by
  rw [← List.drop_drop]
  generalize mem.drop i = s
  calc s.drop (s.takeWhile p).length
      = (s.takeWhile p ++ s.dropWhile p).drop (s.takeWhile p).length := by
        rw [List.takeWhile_append_dropWhile]
    _ = s.dropWhile p := List.drop_left

lemma lt_of_dropWhile (h : (mem.drop i).dropWhile p ≠ []) :
    i + ((mem.drop i).takeWhile p).length < mem.length := by
  rw [← drop_add_takeWhile] at h
  exact List.length_lt_of_drop_ne_nil h

lemma take_takeWhile (s : Bytes) (p : UInt8 → Bool) :
    s.take (s.takeWhile p).length = s.takeWhile p :=
  (List.prefix_iff_eq_take.mp (List.takeWhile_prefix p)).symm

lemma zero_notMem_takeWhile (hp : p 0 = false) : (0 : UInt8) ∉ s.takeWhile p := by
  intro hmem
  have htrue := List.mem_takeWhile_imp hmem
  rw [hp] at htrue
  cases htrue

lemma strndup_eq (hp : p 0 = false) :
    strndup mem i ((mem.drop i).takeWhile p).length = (mem.drop i).takeWhile p := by
  rw [strndup, take_takeWhile]
  exact cstr_eq_self (zero_notMem_takeWhile hp)

lemma strndup_succ_eq (hp : p 0 = false) :
    (strndup mem i (((mem.drop i).takeWhile p).length + 1)).take
        ((mem.drop i).takeWhile p).length = (mem.drop i).takeWhile p := by
  have hnone := zero_notMem_takeWhile (s := mem.drop i) hp
  rw [strndup, List.take_add, take_takeWhile, cstr, List.takeWhile_append_of_pos]
  · simp
  · intro c hc
    simp only [decide_eq_true_eq]
    rintro rfl
    exact hnone hc

def Reader.outcome (cells : TokenArray) (n : ℕ) (r : Reader) :
    Except Fault (Bool × TokenArray × ℕ) :=
  match r.mode with
  | .ended => .ok (false, store cells r.tokens, r.tokens.length)
  | .full =>
    .ok (true, Function.update (store cells r.tokens) r.tokens.length none, r.tokens.length)
  | _ => .error (.char n)

inductive Turn (mem : Bytes) (cells : TokenArray) (i : ℕ) (tokens : List Token) (c : UInt8) : Prop
  | out (hread : Cursor.read mem ⟨i, store cells tokens, tokens.length⟩ c = .error (.char mem.length))
      (hreader : (feedAll ⟨.between, tokens⟩ (mem.drop i)).outcome cells mem.length =
        .error (.char mem.length))
  | next (j : ℕ) (tokens' : List Token)
      (hread : Cursor.read mem ⟨i, store cells tokens, tokens.length⟩ c =
        .ok ⟨j, store cells tokens', tokens'.length⟩)
      (hij : i ≤ j) (hj : j < mem.length) (hroom : tokens'.length < maxTokens)
      (hreader : feedAll ⟨.between, tokens⟩ (mem.drop i) =
        feedAll ⟨.between, tokens'⟩ (mem.drop (j + 1)))

lemma Turn.of_skipWhile (mode : Mode) (start j : ℕ) {tokens' : List Token}
    {f : ℕ → Except Fault Cursor} (hstart : start ≤ mem.length) (hroom : tokens'.length < maxTokens)
    (hread : Cursor.read mem ⟨i, store cells tokens, tokens.length⟩ c = skipWhile mem p start >>= f)
    (hopen : (⟨mode, tokens'⟩ : Reader).outcome cells mem.length = .error (.char mem.length))
    (hf : f (start + ((mem.drop start).takeWhile p).length) =
      .ok ⟨j, store cells tokens', tokens'.length⟩)
    (hij : i ≤ j) (hj : j ≤ start + ((mem.drop start).takeWhile p).length)
    (hj' : start + ((mem.drop start).takeWhile p).length ≤ j + 1)
    (hfeed : feedAll ⟨.between, tokens⟩ (mem.drop i) =
      feedAll ⟨if (mem.drop start).dropWhile p = [] then mode else .between, tokens'⟩
        (mem.drop (j + 1))) : Turn mem cells i tokens c := by
  have hskip := skipWhile_eq (p := p) hstart
  by_cases hend : (mem.drop start).dropWhile p = []
  · rw [if_pos hend] at hskip hfeed
    have hnil : mem.drop (j + 1) = [] := by
      rw [← drop_add_takeWhile, List.drop_eq_nil_iff] at hend
      exact List.drop_eq_nil_of_le (hend.trans hj')
    apply Turn.out
    · rw [hread, hskip]
      rfl
    · rw [hfeed, hnil]
      exact hopen
  · rw [if_neg hend] at hskip hfeed
    refine .next j tokens' ?_ hij (hj.trans_lt (lt_of_dropWhile hend)) hroom hfeed
    rw [hread, hskip]
    exact hf

lemma span_of_pos (hc : mem[i]? = some c) (hp : p c = true) :
    (mem.drop i).takeWhile p = c :: (mem.drop (i + 1)).takeWhile p ∧
      (mem.drop i).dropWhile p = (mem.drop (i + 1)).dropWhile p := by
  obtain ⟨hlt, hget⟩ := List.getElem?_eq_some_iff.mp hc
  rw [List.drop_eq_getElem_cons hlt, hget]
  exact ⟨List.takeWhile_cons_of_pos hp, List.dropWhile_cons_of_pos hp⟩

lemma pos_of_span (hc : mem[i]? = some c) (hp : p c = true) :
    0 < ((mem.drop i).takeWhile p).length := by
  rw [(span_of_pos hc hp).1]
  exact Nat.succ_pos _

section Turns

variable (hc : mem[i]? = some c) (hroom : tokens.length + 1 < maxTokens)
  (hfeed : feedAll ⟨.between, tokens⟩ (mem.drop i) = feedAll (begin tokens c) (mem.drop (i + 1)))

include hroom in
lemma length_push (t : Token) : (tokens ++ [t]).length < maxTokens := by
  rw [List.length_append, List.length_singleton]
  exact hroom

include hc hroom hfeed

lemma turn_push (t : Token) (hread : Cursor.read mem ⟨i, store cells tokens, tokens.length⟩ c =
      Cursor.push ⟨i, store cells tokens, tokens.length⟩ t)
    (hbegin : begin tokens c = ⟨.between, tokens ++ [t]⟩) : Turn mem cells i tokens c := by
  have hlt := (List.getElem?_eq_some_iff.mp hc).1
  refine .next i (tokens ++ [t]) ?_ le_rfl hlt (length_push hroom t) ?_
  · rw [hread, push_store (Nat.lt_of_succ_lt hroom)]
  · rw [hfeed, hbegin]

lemma turn_comment (hcase : lexCase c = .comment) : Turn mem cells i tokens c := by
  have hlt := (List.getElem?_eq_some_iff.mp hc).1
  have hp : inComment c = true := by
    rw [hash_of_comment hcase]
    decide
  have hpos := pos_of_span hc hp
  apply Turn.of_skipWhile (p := inComment) .comment i
    (i + ((mem.drop i).takeWhile inComment).length - 1) hlt.le (Nat.lt_of_succ_lt hroom)
  · rw [Cursor.read, hcase]
  · rfl
  · rfl
  · omega
  · omega
  · omega
  · rw [hfeed, begin, hcase, feedAll_comment, Nat.sub_add_cancel (by omega), drop_add_takeWhile,
      (span_of_pos hc hp).2]

lemma turn_var (hcase : lexCase c = .var) : Turn mem cells i tokens c := by
  have hlt := (List.getElem?_eq_some_iff.mp hc).1
  apply Turn.of_skipWhile (p := (!isSpecialChar ·)) .word (i + 1)
    (i + 1 + ((mem.drop (i + 1)).takeWhile (!isSpecialChar ·)).length - 1) hlt
    (length_push hroom ⟨.var, (mem.drop (i + 1)).takeWhile (!isSpecialChar ·)⟩)
  · rw [Cursor.read, hcase]
  · rfl
  · simp only [bind, Except.bind, Nat.add_sub_cancel_left,
      strndup_eq (p := (!isSpecialChar ·)) (by decide), push_store (Nat.lt_of_succ_lt hroom)]
    rfl
  · omega
  · omega
  · omega
  · rw [hfeed, begin, hcase, feedAll_word, Nat.sub_add_cancel (by omega), drop_add_takeWhile]
    rfl

lemma turn_quote (hcase : lexCase c = .quote) : Turn mem cells i tokens c := by
  have hlt := (List.getElem?_eq_some_iff.mp hc).1
  have hzero : inQuote c 0 = false := by simp [inQuote]
  apply Turn.of_skipWhile (p := inQuote c) (.quoted c) (i + 1)
    (i + 1 + ((mem.drop (i + 1)).takeWhile (inQuote c)).length) hlt
    (length_push hroom ⟨.argument, (mem.drop (i + 1)).takeWhile (inQuote c)⟩)
  · rw [Cursor.read, hcase]
  · rfl
  · simp only [bind, Except.bind, Nat.add_sub_cancel_left, strndup_eq hzero,
      push_store (Nat.lt_of_succ_lt hroom)]
    rfl
  · omega
  · exact le_rfl
  · exact Nat.le_succ _
  · rw [hfeed, begin, hcase, feedAll_quoted, ← drop_add_takeWhile, List.tail_drop]
    rfl

lemma turn_word (hcase : lexCase c = .word) (hplain : isSpecialChar c = false) :
    Turn mem cells i tokens c := by
  have hlt := (List.getElem?_eq_some_iff.mp hc).1
  have hp : (!isSpecialChar c) = true := by simp [hplain]
  obtain ⟨htake, hdrop⟩ := span_of_pos (p := (!isSpecialChar ·)) hc hp
  have hpos := pos_of_span (p := (!isSpecialChar ·)) hc hp
  apply Turn.of_skipWhile (p := (!isSpecialChar ·)) .word i
    (i + ((mem.drop i).takeWhile (!isSpecialChar ·)).length - 1) hlt.le
    (length_push hroom ⟨if startsCommand tokens then .command else .argument,
      (mem.drop i).takeWhile (!isSpecialChar ·)⟩)
  · rw [Cursor.read, hcase]
    simp only [atCommand_store (Nat.lt_of_succ_lt hroom)]
    rfl
  · rfl
  · simp only [bind, Except.bind, Nat.add_sub_cancel_left,
      strndup_succ_eq (p := (!isSpecialChar ·)) (by decide), push_store (Nat.lt_of_succ_lt hroom)]
    rfl
  · omega
  · omega
  · omega
  · rw [hfeed, begin, hcase, feedAll_word, Nat.sub_add_cancel (by omega), drop_add_takeWhile,
      hdrop, htake]
    rfl

lemma turn_redirectOut (hcase : lexCase c = .redirectOut) : Turn mem cells i tokens c := by
  obtain ⟨hlt, hget⟩ := List.getElem?_eq_some_iff.mp hc
  rw [begin, hcase] at hfeed
  obtain rfl : c = 62 := by grind [lexCase]
  cases hnext : mem[i + 1]? with
  | none =>
    have hle := List.getElem?_eq_none_iff.mp hnext
    have hlen : mem.length = i + 1 := le_antisymm hle hlt
    apply Turn.out
    · rw [Cursor.read, hcase]
      simp only [readChar, hnext, hlen]
      rfl
    · rw [hfeed, List.drop_eq_nil_of_le hle]
      rfl
  | some d =>
    obtain ⟨hlt', hget'⟩ := List.getElem?_eq_some_iff.mp hnext
    rw [List.drop_eq_getElem_cons hlt', hget', feedAll_cons, feed] at hfeed
    by_cases hd : d = 62
    · subst hd
      simp only [if_pos, revise_append] at hfeed
      refine .next (i + 1) (tokens ++ [⟨.redirectAppend, [62, 62]⟩]) ?_ (Nat.le_succ i) hlt'
        (length_push hroom _) hfeed
      rw [Cursor.read, hcase]
      simp only [readChar, hnext, bind, Except.bind, push_store (Nat.lt_of_succ_lt hroom)]
      rfl
    · simp only [if_neg hd] at hfeed
      refine .next i (tokens ++ [⟨.redirectOut, [62]⟩]) ?_ le_rfl hlt (length_push hroom _) ?_
      · rw [Cursor.read, hcase]
        simp only [readChar, hnext, bind, Except.bind, push_store (Nat.lt_of_succ_lt hroom),
          if_neg hd]
      · rw [hfeed, List.drop_eq_getElem_cons hlt', hget']
        rfl

end Turns

lemma turn (hc : mem[i]? = some c) (hzero : c ≠ 0) (hspace : ¬(isSpace c = true ∧ c ≠ newline))
    (hroom : ¬tokens.length ≥ maxTokens - 1) : Turn mem cells i tokens c := by
  have hroom' : tokens.length + 1 < maxTokens := by
    rw [maxTokens] at hroom ⊢
    omega
  have hfeed : feedAll ⟨.between, tokens⟩ (mem.drop i) =
      feedAll (begin tokens c) (mem.drop (i + 1)) := by
    obtain ⟨hlt, hget⟩ := List.getElem?_eq_some_iff.mp hc
    rw [List.drop_eq_getElem_cons hlt, hget, ← start_eq hzero hspace hroom]
    rfl
  cases hcase : lexCase c with
  | comment => exact turn_comment hc hroom' hfeed hcase
  | var => exact turn_var hc hroom' hfeed hcase
  | quote => exact turn_quote hc hroom' hfeed hcase
  | word => exact turn_word hc hroom' hfeed hcase (plain_of_word hcase hzero hspace)
  | redirectOut => exact turn_redirectOut hc hroom' hfeed hcase
  | home | sep | pipe | redirectIn | background =>
    apply turn_push hc hroom' hfeed
    · rw [Cursor.read, hcase]
    · rw [begin, hcase]

lemma lexLoop_eq (hi : i ≤ mem.length) (hroom : tokens.length < maxTokens) :
    lexLoop mem ⟨i, store cells tokens, tokens.length⟩ =
      (feedAll ⟨.between, tokens⟩ (mem.drop i)).outcome cells mem.length := by
  induction hk : mem.length - i using Nat.strong_induction_on generalizing i tokens with
  | _ k ih =>
    rw [lexLoop]
    split
    · next hc =>
      have hlen : i = mem.length := le_antisymm hi (List.getElem?_eq_none_iff.mp hc)
      simp only [hlen, List.drop_length]
      rfl
    · next c hc =>
      simp only at hc
      obtain ⟨hlt, hget⟩ := List.getElem?_eq_some_iff.mp hc
      have hdrop : mem.drop i = c :: mem.drop (i + 1) := by
        rw [List.drop_eq_getElem_cons hlt, hget]
      have hfeed : feedAll ⟨.between, tokens⟩ (mem.drop i) =
          feedAll (start tokens c) (mem.drop (i + 1)) := by
        rw [hdrop]
        rfl
      by_cases hzero : c = 0
      · rw [dif_pos hzero, hfeed, start, if_pos hzero, feedAll_ended]
        rfl
      rw [dif_neg hzero]
      by_cases hspace : isSpace c = true ∧ c ≠ newline
      · rw [dif_pos hspace, hfeed, start, if_neg hzero, if_pos hspace]
        exact ih (mem.length - (i + 1)) (by omega) hlt hroom rfl
      rw [dif_neg hspace]
      by_cases hfull : tokens.length ≥ maxTokens - 1
      · rw [if_pos hfull, hfeed, start, if_neg hzero, if_neg hspace, if_pos hfull, feedAll_full,
          writeToken, if_pos (by simp only; omega)]
        rfl
      rw [if_neg hfull]
      have hturn : Turn mem cells i tokens c := turn hc hzero hspace hfull
      cases hturn with
      | out hread hreader =>
        rw [hreader]
        split
        · next e he =>
          rw [hread] at he
          cases he
          rfl
        · next l' hl' =>
          rw [hread] at hl'
          cases hl'
      | next j tokens' hread hij hj hroom' hreader =>
        rw [hreader]
        split
        · next e he =>
          rw [hread] at he
          cases he
        · next l' hl' =>
          rw [hread] at hl'
          cases hl'
          exact ih (mem.length - (j + 1)) (by omega) hj hroom' rfl

def Reader.result (cells : TokenArray) (n : ℕ) (r : Reader) : Except Fault (ℕ × TokenArray) :=
  match r.mode with
  | .ended =>
    if r.tokens = [] then .error (.token (-1))
    else .ok (if r.tokens.getLast?.any isTrailing then 1 else 0,
      Function.update (store cells r.tokens) r.tokens.length none)
  | .full => .ok (2, Function.update (store cells r.tokens) r.tokens.length none)
  | _ => .error (.char n)

lemma lexInto_of_ended (hloop : lexLoop mem ⟨0, cells, 0⟩ =
    .ok (false, store cells tokens, tokens.length)) (hroom : tokens.length < maxTokens) :
    lexInto mem cells =
      if tokens = [] then .error (.token (-1))
      else .ok (if tokens.getLast?.any isTrailing then 1 else 0,
        Function.update (store cells tokens) tokens.length none) := by
  rw [lexInto, hloop]
  simp only [bind, Except.bind, writeToken, Bool.false_eq_true, if_false]
  rw [if_pos (by omega)]
  simp only [Int.toNat_natCast]
  cases hlast : tokens.getLast? with
  | none =>
    obtain rfl := List.getLast?_eq_none_iff.mp hlast
    rfl
  | some t =>
    obtain ⟨front, rfl⟩ := List.getLast?_eq_some_iff.mp hlast
    have hindex : ((front ++ [t]).length : ℤ) - 1 = (front.length : ℤ) := by simp
    rw [hindex, readToken, if_pos (by simp at hroom; omega), if_neg (by simp)]
    have hget : Function.update (store cells (front ++ [t])) (front ++ [t]).length none
        front.length = some t := by
      rw [Function.update_of_ne (by simp), store]
      simp
    simp only [Int.toNat_natCast, hget]
    rfl

theorem lexInto_eq (mem : Bytes) (cells : TokenArray) :
    lexInto mem cells = (init.feedAll mem).result cells mem.length := by
  have hloop : lexLoop mem ⟨0, store cells [], 0⟩ =
      (init.feedAll (mem.drop 0)).outcome cells mem.length :=
    lexLoop_eq (Nat.zero_le mem.length) (by decide)
  rw [store_nil, List.drop_zero] at hloop
  have hroom := (feedAll_length_le (r := init) (s := mem) (by decide)).2
  generalize init.feedAll mem = r at hloop hroom
  rw [Reader.result]
  rw [Reader.outcome] at hloop
  cases hmode : r.mode with
  | ended =>
    rw [hmode] at hloop
    exact lexInto_of_ended hloop hroom
  | _ =>
    rw [hmode] at hloop
    rw [lexInto, hloop]
    rfl

lemma dropWhile_congr {q : UInt8 → Bool} (h : ∀ c ∈ s, p c = q c) :
    s.dropWhile p = s.dropWhile q ∧ s.takeWhile p = s.takeWhile q := by
  induction s with
  | nil => exact ⟨rfl, rfl⟩
  | cons c s ih =>
    obtain ⟨hdrop, htake⟩ := ih fun d hd => h d (List.mem_cons_of_mem _ hd)
    have hc := h c List.mem_cons_self
    by_cases hp : p c = true
    · have hq : q c = true := hc ▸ hp
      simp [hp, hq, hdrop, htake]
    · have hq : ¬q c = true := hc ▸ hp
      simp [hp, hq]

lemma dropWhile_inQuote (hzero : (0 : UInt8) ∉ s) :
    s.dropWhile (inQuote c) = s.dropWhile (· ≠ c) ∧
      s.takeWhile (inQuote c) = s.takeWhile (· ≠ c) := by
  apply dropWhile_congr
  intro d hd
  have hne : d ≠ 0 := fun h0 => hzero (h0 ▸ hd)
  by_cases hdc : d = c <;> simp [inQuote, hne, hdc]

lemma feedAll_quote (hcase : lexCase c = .quote) :
    feedAll (begin tokens c) (s ++ [0]) =
      feedAll ⟨.between, tokens ++ [⟨.argument, s.takeWhile (inQuote c)⟩]⟩
        (s.dropWhile (inQuote c) ++ [0]).tail := by
  rw [begin, hcase, feedAll_quoted,
    dropWhile_append_stop (p := inQuote c) (d := 0) (by simp [inQuote]),
    takeWhile_append_stop (p := inQuote c) (d := 0) (by simp [inQuote]), if_neg (by simp)]
  rfl

lemma feed_lexChar {rest : Bytes} {next : Option Token} (hzero : (0 : UInt8) ∉ s)
    (h : lexChar (startsCommand tokens) c s = .ok (next, rest)) :
    feedAll (begin tokens c) (s ++ [0]) =
      feedAll ⟨.between, tokens ++ next.toList⟩ (rest ++ [0]) := by
  rw [lexChar] at h
  cases hcase : lexCase c with
  | home | sep | pipe | redirectIn | background =>
    simp only [hcase] at h
    cases h
    rw [begin, hcase]
    rfl
  | comment =>
    simp only [hcase] at h
    cases h
    have hsame := dropWhile_congr (s := s) (p := inComment) (q := (!endsComment ·)) <| by
      intro d hd
      have hne : d ≠ 0 := fun h0 => hzero (h0 ▸ hd)
      simp [inComment, hne]
    rw [begin, hcase, feedAll_comment, dropWhile_append_stop (by decide), if_neg (by simp),
      hsame.1]
    simp
  | var | word =>
    simp only [hcase] at h
    cases h
    rw [begin, hcase, feedAll_word,
      dropWhile_append_stop (p := (!isSpecialChar ·)) (d := 0) (by decide),
      takeWhile_append_stop (p := (!isSpecialChar ·)) (d := 0) (by decide), if_neg (by simp)]
    rfl
  | redirectOut =>
    simp only [hcase] at h
    rw [begin, hcase]
    cases s with
    | nil =>
      cases h
      rfl
    | cons d s =>
      by_cases hd : d = 62
      · subst hd
        rw [if_pos List.head?_cons] at h
        cases h
        rw [List.cons_append, feedAll_cons, feed]
        have hc62 : c = 62 := by grind [lexCase]
        simp only [if_pos, revise_append, hc62]
        rfl
      · have hne : (d :: s).head? ≠ some 62 := fun hs => hd (Option.some.inj hs)
        rw [if_neg hne] at h
        cases h
        rw [List.cons_append, feedAll_cons, feed]
        simp only [if_neg hd]
        rfl
  | quote =>
    simp only [hcase] at h
    obtain ⟨hdropWhile, htakeWhile⟩ := dropWhile_inQuote (c := c) hzero
    rw [← hdropWhile, ← htakeWhile] at h
    cases hdrop : s.dropWhile (inQuote c) with
    | nil =>
      rw [hdrop] at h
      cases h
    | cons d rest' =>
      rw [hdrop] at h
      cases h
      rw [feedAll_quote hcase, hdrop]
      rfl

def Reader.lexed (r : Reader) : Except LexStop (List Token) :=
  match r.mode with
  | .ended => .ok r.tokens
  | .full => .error .tooManyTokens
  | _ => .error .pastEnd

lemma lexChar_error {stop : LexStop} (hzero : (0 : UInt8) ∉ s)
    (h : lexChar (startsCommand tokens) c s = .error stop) :
    stop = .pastEnd ∧ ((begin tokens c).feedAll (s ++ [0])).lexed = .error .pastEnd := by
  rw [lexChar] at h
  cases hcase : lexCase c with
  | home | sep | pipe | redirectIn | background | comment | var | word =>
    simp only [hcase] at h
    cases h
  | redirectOut =>
    simp only [hcase] at h
    split_ifs at h
  | quote =>
    simp only [hcase] at h
    obtain ⟨hdropWhile, htakeWhile⟩ := dropWhile_inQuote (c := c) hzero
    rw [← hdropWhile, ← htakeWhile] at h
    cases hdrop : s.dropWhile (inQuote c) with
    | nil =>
      rw [hdrop] at h
      cases h
      refine ⟨rfl, ?_⟩
      rw [feedAll_quote hcase, hdrop]
      rfl
    | cons d rest' =>
      rw [hdrop] at h
      cases h

lemma lexFrom_eq (hzero : (0 : UInt8) ∉ s) :
    lexFrom tokens s = (feedAll ⟨.between, tokens⟩ (s ++ [0])).lexed := by
  fun_induction lexFrom tokens s with
  | case1 tokens => rfl
  | case2 tokens c s hspace ih =>
    rw [List.mem_cons, not_or] at hzero
    obtain ⟨hc, hzero⟩ := hzero
    rw [ih hzero, List.cons_append, feedAll_cons, feed]
    simp only
    rw [start, if_neg (Ne.symm hc), if_pos hspace]
  | case3 tokens c s hspace hfull =>
    rw [List.mem_cons, not_or] at hzero
    obtain ⟨hc, hzero⟩ := hzero
    rw [List.cons_append, feedAll_cons, feed]
    simp only
    rw [start, if_neg (Ne.symm hc), if_neg hspace, if_pos hfull, feedAll_full]
    rfl
  | case4 tokens c s hspace hroom stop hchar =>
    rw [List.mem_cons, not_or] at hzero
    obtain ⟨hc, hzero⟩ := hzero
    obtain ⟨rfl, hlexed⟩ := lexChar_error hzero hchar
    rw [List.cons_append, feedAll_cons, feed]
    simp only
    rw [start_eq (Ne.symm hc) hspace hroom, hlexed]
  | case5 tokens c s hspace hroom token rest hchar ih =>
    rw [List.mem_cons, not_or] at hzero
    obtain ⟨hc, hzero⟩ := hzero
    rw [List.cons_append, feedAll_cons, feed]
    simp only
    rw [start_eq (Ne.symm hc) hspace hroom, feed_lexChar hzero hchar]
    exact ih fun hmem => hzero ((lexChar_suffix hchar).subset hmem)

lemma lexInto_of_lex {cmd : Bytes} (hzero : (0 : UInt8) ∉ cmd) (h : lex cmd = .ok tokens)
    (cells : TokenArray) : lexInto (cmd ++ [0]) cells =
      .ok (0, Function.update (store cells tokens) tokens.length none) := by
  obtain ⟨hfrom, hend⟩ := lex_ok h
  rw [lexFrom_eq hzero] at hfrom
  rw [lexInto_eq]
  change (init.feedAll (cmd ++ [0])).lexed = _ at hfrom
  generalize init.feedAll (cmd ++ [0]) = r at hfrom
  rw [lexed] at hfrom
  rw [Reader.result]
  cases hmode : r.mode with
  | ended =>
    rw [hmode] at hfrom
    obtain rfl := Except.ok.inj hfrom
    rw [lexEnd] at hend
    cases hlast : r.tokens.getLast? with
    | none =>
      rw [hlast] at hend
      cases hend
    | some t =>
      simp only [hlast] at hend
      have hne : r.tokens ≠ [] := by
        rintro hnil
        rw [hnil] at hlast
        cases hlast
      simp only [if_neg hne, Option.any_some, isTrailing]
      split_ifs at hend with htype
      simp only [Bool.or_eq_true, beq_iff_eq, or_assoc, if_neg htype]
  | _ =>
    rw [hmode] at hfrom
    cases hfrom

end SystemsLab.CommandLine
