import SystemsLab.CLib.Bytes
import Mathlib.Data.List.TakeWhile

/-! The tokens of a command line (`lex` of `parser.c`). A token array is the list of the tokens
before its `TOKEN_END`. -/

namespace SystemsLab.CommandLine

open CLib

def maxTokens : ℕ := 1000

inductive TokenType
  | command
  | argument
  | var
  | pipe
  | redirectIn
  | redirectOut
  | redirectAppend
  | background
  | sep
deriving DecidableEq

structure Token where
  type : TokenType
  data : Bytes
deriving DecidableEq

def isSpecialChar (c : UInt8) : Bool :=
  c == 60 || c == 62 || c == 124 || c == 39 || c == 34 || c == 38 || c == 59 || c == 10 ||
    c == 0 || c == 32

/-- `isspace` in the C locale. -/
def isSpace (c : UInt8) : Bool := c == 32 || (9 ≤ c && c ≤ 13)

def newline : UInt8 := 10

/-- Why `lex` does not deliver tokens. The first two are reads outside of the command line and of
the token array, after which nothing is known; the others are its return values `2` and `1`. -/
inductive LexStop
  | pastEnd
  | beforeFirst
  | tooManyTokens
  | trailing
deriving DecidableEq

def startsCommand (tokens : List Token) : Bool :=
  match tokens.getLast? with
  | none => true
  | some t => t.type == .pipe || t.type == .sep

/-- The `switch` at the end of `lex`. -/
def lexEnd (tokens : List Token) : Except LexStop (List Token) :=
  match tokens.getLast? with
  | none => .error .beforeFirst
  | some t =>
    if t.type = .pipe ∨ t.type = .redirectIn ∨ t.type = .redirectOut ∨ t.type = .redirectAppend
    then .error .trailing
    else .ok tokens

/-- The cases of the `switch` over a character in `lex`. -/
inductive LexCase
  | comment
  | var
  | home
  | sep
  | pipe
  | redirectIn
  | redirectOut
  | background
  | quote
  | word
deriving DecidableEq

def lexCase (c : UInt8) : LexCase :=
  if c = 35 then .comment
  else if c = 36 then .var
  else if c = 126 then .home
  else if c = 59 ∨ c = newline then .sep
  else if c = 124 then .pipe
  else if c = 60 then .redirectIn
  else if c = 62 then .redirectOut
  else if c = 38 then .background
  else if c = 39 ∨ c = 34 then .quote
  else .word

def endsComment (c : UInt8) : Bool := c == newline || c == 59

/-- What the loop of `lex` does at a character that it does not skip: the token that it appends, if
any, and the rest of the line. `first` is whether a word is a command here. -/
def lexChar (first : Bool) (c : UInt8) (s : Bytes) : Except LexStop (Option Token × Bytes) :=
  match lexCase c with
  | .comment => .ok (none, s.dropWhile (!endsComment ·))
  | .var =>
    .ok (some ⟨.var, s.takeWhile (!isSpecialChar ·)⟩, s.dropWhile (!isSpecialChar ·))
  | .home => .ok (some ⟨.var, ascii "HOME"⟩, s)
  | .sep => .ok (some ⟨.sep, [c]⟩, s)
  | .pipe => .ok (some ⟨.pipe, [c]⟩, s)
  | .redirectIn => .ok (some ⟨.redirectIn, [c]⟩, s)
  | .redirectOut =>
    if s.head? = some 62 then .ok (some ⟨.redirectAppend, [c, 62]⟩, s.tail)
    else .ok (some ⟨.redirectOut, [c]⟩, s)
  | .background => .ok (some ⟨.background, [c]⟩, s)
  | .quote =>
    match s.dropWhile (· ≠ c) with
    | [] => .error .pastEnd
    | _ :: rest => .ok (some ⟨.argument, s.takeWhile (· ≠ c)⟩, rest)
  | .word =>
    .ok (some ⟨if first then .command else .argument, c :: s.takeWhile (!isSpecialChar ·)⟩,
      s.dropWhile (!isSpecialChar ·))

lemma lexChar_suffix {first : Bool} {token : Option Token} {c : UInt8} {s rest : Bytes}
    (h : lexChar first c s = .ok (token, rest)) : rest <:+ s := by
  rw [lexChar] at h
  cases hc : lexCase c with
  | comment | var | word =>
    rw [hc] at h
    cases h
    exact List.dropWhile_suffix _
  | home | sep | pipe | redirectIn | background =>
    rw [hc] at h
    cases h
    exact List.suffix_refl s
  | redirectOut =>
    simp only [hc] at h
    split_ifs at h
    · cases h
      exact List.tail_suffix s
    · cases h
      exact List.suffix_refl s
  | quote =>
    simp only [hc] at h
    have hdrop := List.dropWhile_suffix (l := s) (· ≠ c)
    cases hd : s.dropWhile (· ≠ c) with
    | nil =>
      rw [hd] at h
      cases h
    | cons d t =>
      rw [hd] at h hdrop
      cases h
      exact (List.suffix_cons d _).trans hdrop

lemma lexChar_length_le {first : Bool} {token : Option Token} {c : UInt8} {s rest : Bytes}
    (h : lexChar first c s = .ok (token, rest)) : rest.length ≤ s.length :=
  (lexChar_suffix h).length_le

/-- The loop of `lex`. -/
def lexFrom (tokens : List Token) (s : Bytes) : Except LexStop (List Token) :=
  match s with
  | [] => .ok tokens
  | c :: s =>
    if isSpace c ∧ c ≠ newline then lexFrom tokens s
    else if tokens.length ≥ maxTokens - 1 then .error .tooManyTokens
    else
      match _h : lexChar (startsCommand tokens) c s with
      | .error e => .error e
      | .ok (token, rest) => lexFrom (tokens ++ token.toList) rest
termination_by s.length
decreasing_by
  · exact Nat.lt_succ_self _
  · exact Nat.lt_succ_of_le (lexChar_length_le _h)

def semicolon : UInt8 := 59

def sepToken : Token := ⟨.sep, [semicolon]⟩

/-- `cmd` are the bytes of the command line before its NUL. -/
def lex (cmd : Bytes) : Except LexStop (List Token) := do
  lexEnd (← lexFrom [] cmd)

end SystemsLab.CommandLine
