import SystemsLab.CommandLine.Cursor
import SystemsLab.CommandLine.Lines

namespace SystemsLab.CommandLine

open CLib

inductive Mode
  | between
  /-- Right behind a single `>`. -/
  | out
  | word
  | quoted (quote : UInt8)
  | comment
  /-- There is no room for another token. -/
  | full
  | ended
deriving DecidableEq

structure Reader where
  mode : Mode
  tokens : List Token
deriving DecidableEq

namespace Reader

def init : Reader := ⟨.between, []⟩

def revise (f : Token → Token) (tokens : List Token) : List Token :=
  tokens.dropLast ++ tokens.getLast?.toList.map f

def extend (tokens : List Token) (c : UInt8) : List Token :=
  revise (fun t => { t with data := t.data ++ [c] }) tokens

def begin (tokens : List Token) (c : UInt8) : Reader :=
  match lexCase c with
  | .comment => ⟨.comment, tokens⟩
  | .var => ⟨.word, tokens ++ [⟨.var, []⟩]⟩
  | .home => ⟨.between, tokens ++ [⟨.var, ascii "HOME"⟩]⟩
  | .sep => ⟨.between, tokens ++ [⟨.sep, [c]⟩]⟩
  | .pipe => ⟨.between, tokens ++ [⟨.pipe, [c]⟩]⟩
  | .redirectIn => ⟨.between, tokens ++ [⟨.redirectIn, [c]⟩]⟩
  | .redirectOut => ⟨.out, tokens ++ [⟨.redirectOut, [c]⟩]⟩
  | .background => ⟨.between, tokens ++ [⟨.background, [c]⟩]⟩
  | .quote => ⟨.quoted c, tokens ++ [⟨.argument, []⟩]⟩
  | .word => ⟨.word, tokens ++ [⟨if startsCommand tokens then .command else .argument, [c]⟩]⟩

def start (tokens : List Token) (c : UInt8) : Reader :=
  if c = 0 then ⟨.ended, tokens⟩
  else if isSpace c ∧ c ≠ newline then ⟨.between, tokens⟩
  else if tokens.length ≥ maxTokens - 1 then ⟨.full, tokens⟩
  else begin tokens c

def feed (r : Reader) (c : UInt8) : Reader :=
  match r.mode with
  | .between => start r.tokens c
  | .out =>
    if c = 62 then ⟨.between, revise (fun _ => ⟨.redirectAppend, [62, 62]⟩) r.tokens⟩
    else start r.tokens c
  | .word => if isSpecialChar c then start r.tokens c else ⟨.word, extend r.tokens c⟩
  | .quoted q => if c = q ∨ c = 0 then ⟨.between, r.tokens⟩ else ⟨.quoted q, extend r.tokens c⟩
  | .comment => if endsComment c ∨ c = 0 then start r.tokens c else r
  | .full | .ended => r

def feedAll (r : Reader) (s : Bytes) : Reader := s.foldl feed r

end Reader

variable {s u v : Bytes} {tokens : List Token} {token : Token} {c : UInt8} {r : Reader}

open Reader

lemma feedAll_nil : r.feedAll [] = r := rfl

lemma feedAll_cons : r.feedAll (c :: s) = (r.feed c).feedAll s := rfl

lemma feedAll_append : r.feedAll (u ++ v) = (r.feedAll u).feedAll v := List.foldl_append

lemma revise_append (f : Token → Token) : revise f (tokens ++ [token]) = tokens ++ [f token] := by
  simp [revise]

lemma revise_length (f : Token → Token) (tokens : List Token) :
    (revise f tokens).length = tokens.length := by
  rcases List.eq_nil_or_concat tokens with rfl | ⟨front, t, rfl⟩
  · rfl
  · rw [List.concat_eq_append, revise_append, List.length_append, List.length_append]
    rfl

lemma feedAll_full : feedAll ⟨.full, tokens⟩ s = ⟨.full, tokens⟩ := by
  induction s with
  | nil => rfl
  | cons c s ih => exact ih

lemma feedAll_ended : feedAll ⟨.ended, tokens⟩ s = ⟨.ended, tokens⟩ := by
  induction s with
  | nil => rfl
  | cons c s ih => exact ih

lemma feedAll_word {type : TokenType} {data : Bytes} :
    feedAll ⟨.word, tokens ++ [⟨type, data⟩]⟩ s =
      feedAll ⟨if s.dropWhile (!isSpecialChar ·) = [] then .word else .between,
        tokens ++ [⟨type, data ++ s.takeWhile (!isSpecialChar ·)⟩]⟩
        (s.dropWhile (!isSpecialChar ·)) := by
  induction s generalizing data with
  | nil => simp
  | cons c s ih =>
    by_cases hc : isSpecialChar c = true
    · simp [hc, feedAll_cons, feed]
    · rw [feedAll_cons, feed]
      simp only [hc, extend, revise_append]
      rw [if_neg (by simp), ih]
      simp [hc]

lemma feedAll_quoted {q : UInt8} {type : TokenType} {data : Bytes} :
    feedAll ⟨.quoted q, tokens ++ [⟨type, data⟩]⟩ s =
      feedAll ⟨if s.dropWhile (inQuote q) = [] then .quoted q else .between,
        tokens ++ [⟨type, data ++ s.takeWhile (inQuote q)⟩]⟩
        (s.dropWhile (inQuote q)).tail := by
  induction s generalizing data with
  | nil => simp
  | cons c s ih =>
    by_cases hc : c = q ∨ c = 0
    · have hp : inQuote q c = false := by
        rcases hc with rfl | rfl <;> simp [inQuote]
      simp [feedAll_cons, feed, hc, hp]
    · have hp : inQuote q c = true := by
        rw [not_or] at hc
        simp [inQuote, hc]
      rw [feedAll_cons, feed]
      simp only [hc, extend, revise_append]
      rw [if_neg (by simp), ih]
      simp [hp]

lemma feedAll_comment :
    feedAll ⟨.comment, tokens⟩ s =
      feedAll ⟨if s.dropWhile inComment = [] then .comment else .between,
        tokens⟩ (s.dropWhile inComment) := by
  induction s with
  | nil => simp
  | cons c s ih =>
    by_cases hc : endsComment c = true ∨ c = 0
    · have hp : inComment c = false := by
        rcases hc with hc | rfl
        · simp [inComment, hc]
        · simp [inComment]
      simp [feedAll_cons, feed, hc, hp]
    · have hp : inComment c = true := by
        rw [not_or] at hc
        simp [inComment, hc]
      rw [feedAll_cons, feed]
      simp only [hc]
      rw [if_neg (by simp), ih]
      simp [hp]

namespace Reader

lemma start_eq (hzero : c ≠ 0) (hspace : ¬(isSpace c = true ∧ c ≠ newline))
    (hroom : ¬tokens.length ≥ maxTokens - 1) : start tokens c = begin tokens c := by
  rw [start, if_neg hzero, if_neg hspace, if_neg hroom]

lemma begin_length_le (hroom : ¬tokens.length ≥ maxTokens - 1) :
    tokens.length ≤ (begin tokens c).tokens.length ∧ (begin tokens c).tokens.length < maxTokens := by
  rw [maxTokens] at hroom ⊢
  rw [begin]
  cases lexCase c <;> simp <;> omega

lemma start_length_le (hroom : tokens.length < maxTokens) :
    tokens.length ≤ (start tokens c).tokens.length ∧ (start tokens c).tokens.length < maxTokens := by
  rw [start]
  split_ifs with hzero hspace hfull
  · exact ⟨le_rfl, hroom⟩
  · exact ⟨le_rfl, hroom⟩
  · exact ⟨le_rfl, hroom⟩
  · exact begin_length_le hfull

lemma feed_length_le (hroom : r.tokens.length < maxTokens) :
    r.tokens.length ≤ (r.feed c).tokens.length ∧ (r.feed c).tokens.length < maxTokens := by
  have hstart := start_length_le (c := c) hroom
  have hrevise : ∀ f : Token → Token, r.tokens.length ≤ (revise f r.tokens).length ∧
      (revise f r.tokens).length < maxTokens := fun f =>
    ⟨(revise_length f _).ge, (revise_length f _).trans_lt hroom⟩
  rw [feed]
  cases r.mode with
  | between => exact hstart
  | full | ended => exact ⟨le_rfl, hroom⟩
  | out =>
    simp only
    split_ifs
    · exact hrevise _
    · exact hstart
  | word =>
    simp only
    split_ifs
    · exact hstart
    · exact hrevise _
  | quoted q =>
    simp only
    split_ifs
    · exact ⟨le_rfl, hroom⟩
    · exact hrevise _
  | comment =>
    simp only
    split_ifs
    · exact hstart
    · exact ⟨le_rfl, hroom⟩

lemma feedAll_length_le (hroom : r.tokens.length < maxTokens) :
    r.tokens.length ≤ (r.feedAll s).tokens.length ∧ (r.feedAll s).tokens.length < maxTokens := by
  induction s generalizing r with
  | nil => exact ⟨le_rfl, hroom⟩
  | cons c s ih =>
    obtain ⟨hle, hlt⟩ := feed_length_le (c := c) hroom
    obtain ⟨hle', hlt'⟩ := ih hlt
    exact ⟨hle.trans hle', hlt'⟩

end Reader

end SystemsLab.CommandLine
