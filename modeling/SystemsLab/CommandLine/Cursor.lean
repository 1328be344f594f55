import SystemsLab.CommandLine.Lexer
import Mathlib.Logic.Function.Basic

/-! `lex` of `parser.c` with its cursor in the memory of the command line and its index into the
token array. The memory is what can be read from the start of the command line on; every access
outside of it, or outside of the token array, is a fault. -/

namespace SystemsLab.CommandLine

open CLib

/-- `none` is a `TOKEN_END`. -/
abbrev TokenArray := ℕ → Option Token

inductive Fault
  | char (i : ℕ)
  | token (i : ℤ)
deriving DecidableEq

def readChar (mem : Bytes) (i : ℕ) : Except Fault UInt8 :=
  match mem[i]? with
  | none => .error (.char i)
  | some c => .ok c

def readToken (tokens : TokenArray) (i : ℤ) : Except Fault (Option Token) :=
  if 0 ≤ i ∧ i < maxTokens then .ok (tokens i.toNat) else .error (.token i)

def writeToken (tokens : TokenArray) (i : ℤ) (token : Option Token) : Except Fault TokenArray :=
  if 0 ≤ i ∧ i < maxTokens then .ok (Function.update tokens i.toNat token)
  else .error (.token i)

/-- The inner loops: where the first character from `i` on is that does not satisfy `p`. -/
def skipWhile (mem : Bytes) (p : UInt8 → Bool) (i : ℕ) : Except Fault ℕ :=
  match _h : mem[i]? with
  | none => .error (.char i)
  | some c => if p c then skipWhile mem p (i + 1) else .ok i
termination_by mem.length - i
decreasing_by
  have hlt := (List.getElem?_eq_some_iff.mp _h).1
  omega

def inComment (c : UInt8) : Bool := !endsComment c && c != 0

def inQuote (quote c : UInt8) : Bool := c != quote && c != 0

def strndup (mem : Bytes) (start n : ℕ) : Bytes := cstr ((mem.drop start).take n)

structure Cursor where
  currChar : ℕ
  tokens : TokenArray
  tokenI : ℕ

namespace Cursor

def push (l : Cursor) (token : Token) : Except Fault Cursor :=
  (writeToken l.tokens l.tokenI (some token)).map fun tokens =>
    { l with tokens := tokens, tokenI := l.tokenI + 1 }

def atCommand (l : Cursor) : Except Fault Bool :=
  if l.tokenI = 0 then .ok true
  else (readToken l.tokens (l.tokenI - 1)).map fun previous =>
    previous.any fun t => t.type == .pipe || t.type == .sep

/-- The `switch` over the current character, `c`. -/
def read (mem : Bytes) (l : Cursor) (c : UInt8) : Except Fault Cursor :=
  match lexCase c with
  | .comment => do
    let i ← skipWhile mem inComment l.currChar
    return { l with currChar := i - 1 }
  | .var => do
    let varStart := l.currChar + 1
    let i ← skipWhile mem (!isSpecialChar ·) varStart
    let l ← l.push ⟨.var, strndup mem varStart (i - varStart)⟩
    return { l with currChar := i - 1 }
  | .home => l.push ⟨.var, ascii "HOME"⟩
  | .sep => l.push ⟨.sep, [c]⟩
  | .pipe => l.push ⟨.pipe, [c]⟩
  | .redirectIn => l.push ⟨.redirectIn, [c]⟩
  | .redirectOut => do
    let next ← readChar mem (l.currChar + 1)
    if next = 62 then
      let l ← l.push ⟨.redirectAppend, [c, next]⟩
      return { l with currChar := l.currChar + 1 }
    else l.push ⟨.redirectOut, [c]⟩
  | .background => l.push ⟨.background, [c]⟩
  | .quote => do
    let start := l.currChar + 1
    let i ← skipWhile mem (inQuote c) start
    let l ← l.push ⟨.argument, strndup mem start (i - start)⟩
    return { l with currChar := i }
  | .word => do
    let commandStart := l.currChar
    let first ← l.atCommand
    let i ← skipWhile mem (!isSpecialChar ·) commandStart
    let n := i - commandStart
    -- the copy has one character too many, which is overwritten
    let l ← l.push
      ⟨if first then .command else .argument, (strndup mem commandStart (n + 1)).take n⟩
    return { l with currChar := i - 1 }

end Cursor

variable {mem : Bytes} {p : UInt8 → Bool} {l l' : Cursor} {c : UInt8} {i j : ℕ} {token : Token}

lemma le_skipWhile (h : skipWhile mem p i = .ok j) : i ≤ j := by
  fun_induction skipWhile mem p i with
  | case1 => cases h
  | case2 i c hc hp ih => exact Nat.le_of_succ_le (ih h)
  | case3 i c hc hp =>
    cases h
    exact le_rfl

lemma lt_skipWhile (hc : mem[i]? = some c) (hp : p c = true) (h : skipWhile mem p i = .ok j) :
    i < j := by
  rw [skipWhile] at h
  split at h
  · cases h
  · next d hd =>
    rw [hc] at hd
    obtain rfl := Option.some.inj hd
    rw [if_pos hp] at h
    exact le_skipWhile h

lemma Cursor.push_currChar (h : l.push token = .ok l') : l'.currChar = l.currChar := by
  rw [Cursor.push] at h
  cases hw : writeToken l.tokens l.tokenI (some token) with
  | error e =>
    rw [hw] at h
    cases h
  | ok tokens =>
    rw [hw] at h
    cases h
    rfl

lemma bind_ok {ε α β : Type} {m : Except ε α} {f : α → Except ε β} {b : β} (h : m >>= f = .ok b) :
    ∃ a, m = .ok a ∧ f a = .ok b := by
  cases m with
  | error e => cases h
  | ok a => exact ⟨a, rfl, h⟩

lemma special_of_word (hcase : lexCase c = .word) (hspecial : isSpecialChar c = true) :
    c = 0 ∨ c = 32 := by
  grind [isSpecialChar, lexCase, newline]

lemma plain_of_word (hcase : lexCase c = .word) (hzero : c ≠ 0)
    (hspace : ¬(isSpace c = true ∧ c ≠ newline)) : isSpecialChar c = false := by
  rw [Bool.eq_false_iff]
  intro hspecial
  rcases special_of_word hcase hspecial with rfl | rfl
  · exact hzero rfl
  · exact hspace ⟨by decide, by decide⟩

lemma hash_of_comment (hcase : lexCase c = .comment) : c = 35 := by
  grind [lexCase]

lemma Cursor.le_read (hc : mem[l.currChar]? = some c) (hzero : c ≠ 0)
    (hspace : ¬(isSpace c = true ∧ c ≠ newline)) (h : l.read mem c = .ok l') :
    l.currChar ≤ l'.currChar := by
  rw [Cursor.read] at h
  cases hcase : lexCase c with
  | comment =>
    simp only [hcase] at h
    obtain ⟨i, hi, h⟩ := bind_ok h
    cases h
    obtain rfl := hash_of_comment hcase
    have hlt := lt_skipWhile hc (by decide) hi
    exact Nat.le_sub_one_of_lt hlt
  | var =>
    simp only [hcase] at h
    obtain ⟨i, hi, h⟩ := bind_ok h
    obtain ⟨l₁, hl, h⟩ := bind_ok h
    cases h
    exact Nat.le_sub_one_of_lt (le_skipWhile hi)
  | home | sep | pipe | redirectIn | background =>
    simp only [hcase] at h
    exact (push_currChar h).ge
  | redirectOut =>
    simp only [hcase] at h
    obtain ⟨next, hnext, h⟩ := bind_ok h
    split_ifs at h
    · obtain ⟨l₁, hl, h⟩ := bind_ok h
      cases h
      exact (push_currChar hl).ge.trans (Nat.le_succ _)
    · exact (push_currChar h).ge
  | quote =>
    simp only [hcase] at h
    obtain ⟨i, hi, h⟩ := bind_ok h
    obtain ⟨l₁, hl, h⟩ := bind_ok h
    cases h
    exact Nat.le_of_succ_le (le_skipWhile hi)
  | word =>
    simp only [hcase] at h
    obtain ⟨first, hfirst, h⟩ := bind_ok h
    obtain ⟨i, hi, h⟩ := bind_ok h
    obtain ⟨l₁, hl, h⟩ := bind_ok h
    cases h
    have hplain := plain_of_word hcase hzero hspace
    have hlt := lt_skipWhile hc (by simp [hplain]) hi
    exact Nat.le_sub_one_of_lt hlt

/-- The loop: whether it stops because there are too many tokens, the token array and `token_i`. -/
def lexLoop (mem : Bytes) (l : Cursor) : Except Fault (Bool × TokenArray × ℕ) :=
  match _hc : mem[l.currChar]? with
  | none => .error (.char l.currChar)
  | some c =>
    if _hzero : c = 0 then .ok (false, l.tokens, l.tokenI)
    else if _hspace : isSpace c = true ∧ c ≠ newline then
      lexLoop mem { l with currChar := l.currChar + 1 }
    else if l.tokenI ≥ maxTokens - 1 then
      (writeToken l.tokens l.tokenI none).map fun tokens => (true, tokens, l.tokenI)
    else
      match _h : l.read mem c with
      | .error e => .error e
      | .ok l' => lexLoop mem { l' with currChar := l'.currChar + 1 }
termination_by mem.length - l.currChar
decreasing_by
  · have hlt := (List.getElem?_eq_some_iff.mp _hc).1
    omega
  · have hlt := (List.getElem?_eq_some_iff.mp _hc).1
    have hle := Cursor.le_read _hc _hzero _hspace _h
    omega

/-- Whether `lex` warns about a token at the end. -/
def isTrailing (t : Token) : Bool :=
  t.type == .pipe || t.type == .redirectIn || t.type == .redirectOut || t.type == .redirectAppend

/-- `lex`: the status that it returns and the token array that it leaves. -/
def lexInto (mem : Bytes) (tokens : TokenArray) : Except Fault (ℕ × TokenArray) := do
  let (full, tokens, tokenI) ← lexLoop mem ⟨0, tokens, 0⟩
  if full then return (2, tokens)
  let tokens ← writeToken tokens tokenI none
  let last ← readToken tokens (tokenI - 1)
  return (if last.any isTrailing then 1 else 0, tokens)

end SystemsLab.CommandLine
