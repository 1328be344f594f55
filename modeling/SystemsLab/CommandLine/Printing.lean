import SystemsLab.CommandLine.Bounds

namespace SystemsLab.CommandLine

open CLib Reader

structure Word where
  bytes : Bytes
  ne_nil : bytes ≠ []
  plain : ∀ c ∈ bytes, isSpecialChar c = false ∧ isSpace c = false
  head : ∀ c, bytes.head? = some c → c ≠ 35 ∧ c ≠ 36 ∧ c ≠ 126

structure Quotation where
  quote : UInt8
  text : Bytes
  isQuote : quote = 39 ∨ quote = 34
  notMem : quote ∉ text
  nul : (0 : UInt8) ∉ text

inductive Operator
  | semicolon
  | newline
  | pipe
  | redirectIn
  | redirectOut
  | redirectAppend
  | background
deriving DecidableEq

inductive Item
  | word (w : Word)
  | quotation (q : Quotation)
  | var (name : Word)
  | operator (o : Operator)

def Operator.print : Operator → Bytes
  | .semicolon => [59]
  | .newline => [10]
  | .pipe => [124]
  | .redirectIn => [60]
  | .redirectOut => [62]
  | .redirectAppend => [62, 62]
  | .background => [38]

def Operator.type : Operator → TokenType
  | .semicolon | .newline => .sep
  | .pipe => .pipe
  | .redirectIn => .redirectIn
  | .redirectOut => .redirectOut
  | .redirectAppend => .redirectAppend
  | .background => .background

namespace Item

def print : Item → Bytes
  | word w => w.bytes
  | quotation q => q.quote :: q.text ++ [q.quote]
  | var name => 36 :: name.bytes
  | operator o => o.print

def token (first : Bool) : Item → Token
  | word w => ⟨if first then .command else .argument, w.bytes⟩
  | quotation q => ⟨.argument, q.text⟩
  | var name => ⟨.var, name.bytes⟩
  | operator o => ⟨o.type, o.print⟩

def isOperator : Item → Bool
  | operator _ => true
  | _ => false

def beforeCommand : Item → Bool
  | operator o => o.type == .pipe || o.type == .sep
  | _ => false

def isOpen : Item → Bool
  | operator o => o.type == .pipe || o.type == .redirectIn || o.type == .redirectOut ||
      o.type == .redirectAppend
  | _ => false

end Item

def tokensOf (first : Bool) : List Item → List Token
  | [] => []
  | x :: items => x.token first :: tokensOf x.beforeCommand items

def spaced (items : List Item) : Bytes := [32].intercalate (items.map Item.print)

/-- The items with a space between any two of them, but for some of those around operators that do
not keep two `>` apart. -/
inductive Printed : List Item → Bytes → Prop
  | last (x : Item) : Printed [x] x.print
  | space {x y : Item} {items : List Item} {text : Bytes} (h : Printed (y :: items) text) :
      Printed (x :: y :: items) (x.print ++ 32 :: text)
  | tight {x y : Item} {items : List Item} {text : Bytes}
      (hoperator : x.isOperator ∨ y.isOperator)
      (hout : ¬(x.print.getLast? = some 62 ∧ y.print.head? = some 62))
      (h : Printed (y :: items) text) : Printed (x :: y :: items) (x.print ++ text)

variable {items : List Item} {text s : Bytes} {tokens : List Token} {x y : Item} {c : UInt8}

def Item.mode : Item → Mode
  | .word _ | .var _ => .word
  | .operator .redirectOut => .out
  | _ => .between

lemma spaced_printed (hne : items ≠ []) : Printed items (spaced items) := by
  induction items with
  | nil => exact absurd rfl hne
  | cons x items ih =>
    cases items with
    | nil =>
      rw [spaced, List.map_singleton, List.intercalate_singleton]
      exact .last x
    | cons y items =>
      rw [spaced, List.map_cons, List.map_cons, List.intercalate_cons_cons, List.append_assoc]
      exact .space (ih (by simp))

lemma feedAll_plain {type : TokenType} {data : Bytes} (h : ∀ c ∈ s, isSpecialChar c = false) :
    feedAll ⟨.word, tokens ++ [⟨type, data⟩]⟩ s = ⟨.word, tokens ++ [⟨type, data ++ s⟩]⟩ := by
  induction s generalizing data with
  | nil => simp [feedAll_nil]
  | cons c s ih =>
    rw [List.forall_mem_cons] at h
    rw [feedAll_cons, feed]
    simp only [h.1, extend, revise_append]
    rw [if_neg (by simp), ih h.2]
    simp

lemma feedAll_quotation {type : TokenType} {data : Bytes} {q : UInt8} (hq : q ∉ s)
    (hzero : (0 : UInt8) ∉ s) :
    feedAll ⟨.quoted q, tokens ++ [⟨type, data⟩]⟩ (s ++ [q]) =
      ⟨.between, tokens ++ [⟨type, data ++ s⟩]⟩ := by
  induction s generalizing data with
  | nil => simp [feedAll_cons, feedAll_nil, feed]
  | cons c s ih =>
    rw [List.mem_cons, not_or] at hq hzero
    rw [List.cons_append, feedAll_cons, feed]
    simp only [extend, revise_append]
    rw [if_neg (by simp [Ne.symm hq.1, Ne.symm hzero.1]), ih hq.2 hzero.2]
    simp

lemma start_word (w : Word) (hcons : w.bytes = c :: s) (hroom : ¬tokens.length ≥ maxTokens - 1) :
    start tokens c =
      ⟨.word, tokens ++ [⟨if startsCommand tokens then .command else .argument, [c]⟩]⟩ := by
  obtain ⟨hspecial, hspace⟩ := w.plain c (by rw [hcons]; exact List.mem_cons_self)
  obtain ⟨h35, h36, h126⟩ := w.head c (by rw [hcons]; rfl)
  have hzero : c ≠ 0 := by
    rintro rfl
    cases hspecial
  have hcase : lexCase c = .word := by
    grind [lexCase, isSpecialChar, newline]
  rw [start_eq hzero (by simp [hspace]) hroom, begin, hcase]

lemma feedAll_print (hroom : ¬tokens.length ≥ maxTokens - 1) (x : Item) :
    feedAll ⟨.between, tokens⟩ x.print =
      ⟨x.mode, tokens ++ [x.token (startsCommand tokens)]⟩ := by
  have hbegin : ∀ c s, c ≠ 0 → ¬(isSpace c = true ∧ c ≠ newline) →
      feedAll ⟨.between, tokens⟩ (c :: s) = feedAll (begin tokens c) s := by
    intro c s hzero hspace
    rw [feedAll_cons, ← start_eq hzero hspace hroom]
    rfl
  cases x with
  | word w =>
    obtain ⟨c, s, hcons⟩ := List.exists_cons_of_ne_nil w.ne_nil
    have hplain : ∀ d ∈ s, isSpecialChar d = false := by
      intro d hd
      exact (w.plain d (by rw [hcons]; exact List.mem_cons_of_mem c hd)).1
    rw [Item.print, hcons, feedAll_cons, feed]
    simp only
    rw [start_word w hcons hroom, feedAll_plain hplain, List.singleton_append, ← hcons]
    rfl
  | quotation q =>
    obtain ⟨hzero, hspace, hcase⟩ : q.quote ≠ 0 ∧ ¬(isSpace q.quote = true ∧ q.quote ≠ newline) ∧
        lexCase q.quote = .quote := by
      rcases q.isQuote with hq | hq <;> rw [hq] <;> decide
    rw [Item.print, List.cons_append, hbegin _ _ hzero hspace, begin, hcase]
    simp only
    rw [feedAll_quotation q.notMem q.nul]
    rfl
  | var name =>
    rw [Item.print, hbegin 36 _ (by decide) (by decide)]
    change feedAll ⟨.word, tokens ++ [⟨.var, []⟩]⟩ _ = _
    rw [feedAll_plain fun c hc => (name.plain c hc).1]
    rfl
  | operator o =>
    cases o with
    | redirectAppend =>
      rw [Item.print, Operator.print, hbegin 62 _ (by decide) (by decide)]
      change feed ⟨.out, tokens ++ [⟨.redirectOut, [62]⟩]⟩ 62 = _
      rw [feed]
      simp only [if_pos, revise_append]
      rfl
    | semicolon | newline | pipe | redirectIn | redirectOut | background =>
      rw [Item.print, Operator.print, hbegin _ _ (by decide) (by decide)]
      rfl

lemma feed_space (x : Item) : feed ⟨x.mode, tokens⟩ 32 = ⟨.between, tokens⟩ := by
  cases x with
  | operator o => cases o <;> rfl
  | word w => rfl
  | quotation q => rfl
  | var name => rfl

lemma print_cons (x : Item) : ∃ c s, x.print = c :: s := by
  cases x with
  | word w => exact List.exists_cons_of_ne_nil w.ne_nil
  | quotation q => exact ⟨_, _, rfl⟩
  | var name => exact ⟨_, _, rfl⟩
  | operator o => cases o <;> exact ⟨_, _, rfl⟩

lemma special_of_operator (h : x.isOperator = true) (hcons : x.print = c :: s) :
    isSpecialChar c = true := by
  cases x with
  | operator o =>
    cases o <;> · cases hcons; rfl
  | word w => cases h
  | quotation q => cases h
  | var name => cases h

lemma feed_tight (hoperator : x.isOperator ∨ y.isOperator)
    (hout : ¬(x.print.getLast? = some 62 ∧ y.print.head? = some 62)) (hcons : y.print = c :: s) :
    feed ⟨x.mode, tokens⟩ c = feed ⟨.between, tokens⟩ c := by
  have hword : y.isOperator = true → feed ⟨.word, tokens⟩ c = feed ⟨.between, tokens⟩ c := by
    intro hy
    simp only [feed, special_of_operator hy hcons, if_true]
  cases x with
  | word w => exact hword (hoperator.resolve_left (by simp [Item.isOperator]))
  | var name => exact hword (hoperator.resolve_left (by simp [Item.isOperator]))
  | quotation q => rfl
  | operator o =>
    cases o with
    | redirectOut =>
      have hne : c ≠ 62 := by
        rintro rfl
        exact hout ⟨rfl, by rw [hcons]; rfl⟩
      simp only [Item.mode, feed, if_neg hne]
    | semicolon | newline | pipe | redirectIn | redirectAppend | background => rfl

lemma startsCommand_concat (x : Item) (first : Bool) :
    startsCommand (tokens ++ [x.token first]) = x.beforeCommand := by
  rw [startsCommand, List.getLast?_concat]
  cases x with
  | word w => cases first <;> rfl
  | quotation q => rfl
  | var name => rfl
  | operator o => rfl

lemma tokensOf_length (first : Bool) (items : List Item) :
    (tokensOf first items).length = items.length := by
  induction items generalizing first with
  | nil => rfl
  | cons x items ih => rw [tokensOf, List.length_cons, List.length_cons, ih]

lemma Printed.head (h : Printed (y :: items) text) : ∃ s, text = y.print ++ s := by
  cases h with
  | last => exact ⟨[], (List.append_nil _).symm⟩
  | space h => exact ⟨_, rfl⟩
  | tight hoperator hout h => exact ⟨_, rfl⟩

lemma feedAll_printed (h : Printed items text)
    (hroom : tokens.length + items.length < maxTokens) :
    ∃ x, items.getLast? = some x ∧ feedAll ⟨.between, tokens⟩ text =
      ⟨x.mode, tokens ++ tokensOf (startsCommand tokens) items⟩ := by
  induction h generalizing tokens with
  | last x =>
    refine ⟨x, rfl, feedAll_print ?_ x⟩
    rw [List.length_singleton] at hroom
    omega
  | @space x y items text h ih =>
    rw [List.length_cons] at hroom
    obtain ⟨z, hz, hfeed⟩ := @ih (tokens ++ [x.token (startsCommand tokens)]) (by
      rw [List.length_append, List.length_singleton]
      omega)
    refine ⟨z, by rwa [List.getLast?_cons_cons], ?_⟩
    rw [feedAll_append, feedAll_print (by omega) x, feedAll_cons, feed_space, hfeed,
      startsCommand_concat, List.append_assoc]
    rfl
  | @tight x y items text hoperator hout h ih =>
    rw [List.length_cons] at hroom
    obtain ⟨z, hz, hfeed⟩ := @ih (tokens ++ [x.token (startsCommand tokens)]) (by
      rw [List.length_append, List.length_singleton]
      omega)
    refine ⟨z, by rwa [List.getLast?_cons_cons], ?_⟩
    have hskip : feedAll ⟨x.mode, tokens ++ [x.token (startsCommand tokens)]⟩ text =
        feedAll ⟨.between, tokens ++ [x.token (startsCommand tokens)]⟩ text := by
      obtain ⟨rest, rfl⟩ := h.head
      obtain ⟨c, s, hcons⟩ := print_cons y
      rw [hcons, List.cons_append, feedAll_cons, feedAll_cons, feed_tight hoperator hout hcons]
    rw [feedAll_append, feedAll_print (by omega) x, hskip, hfeed, startsCommand_concat,
      List.append_assoc]
    rfl

lemma tokensOf_getLast? (first : Bool) (hlast : items.getLast? = some x) :
    ∃ first', (tokensOf first items).getLast? = some (x.token first') := by
  induction items generalizing first with
  | nil => cases hlast
  | cons y items ih =>
    cases items with
    | nil =>
      obtain rfl := Option.some.inj hlast
      exact ⟨first, rfl⟩
    | cons z items =>
      rw [List.getLast?_cons_cons] at hlast
      obtain ⟨first', h⟩ := ih y.beforeCommand hlast
      refine ⟨first', ?_⟩
      rw [tokensOf, tokensOf, List.getLast?_cons_cons]
      exact h

lemma isTrailing_token (first : Bool) (x : Item) : isTrailing (x.token first) = x.isOpen := by
  cases x with
  | word w => cases first <;> rfl
  | quotation q => rfl
  | var name => rfl
  | operator o => rfl

lemma lexInto_printed (h : Printed items text) (hroom : items.length < maxTokens)
    (hlast : ∀ x ∈ items.getLast?, x.isOpen = false) (cells : TokenArray) :
    lexInto (text ++ [0]) cells =
      .ok (0, Function.update (store cells (tokensOf true items)) items.length none) := by
  obtain ⟨x, hx, hfeed⟩ := @feedAll_printed _ _ [] h (by simpa using hroom)
  obtain ⟨first, htoken⟩ := tokensOf_getLast? true hx
  have hended : init.feedAll (text ++ [0]) = ⟨.ended, tokensOf true items⟩ := by
    rw [feedAll_append]
    change feed (feedAll ⟨.between, []⟩ text) 0 = _
    rw [hfeed]
    cases x with
    | operator o => cases o <;> rfl
    | word w => rfl
    | quotation q => rfl
    | var name => rfl
  have hne : tokensOf true items ≠ [] := by
    intro hnil
    rw [hnil] at htoken
    cases htoken
  rw [lexInto_eq, hended, Reader.result]
  simp only [if_neg hne, htoken, Option.any_some, isTrailing_token, hlast x hx,
    tokensOf_length]
  rfl

theorem lexInto_spaced (hne : items ≠ []) (hroom : items.length < maxTokens - 1)
    (hlast : ∀ x ∈ items.getLast?, x.isOpen = false) (cells : TokenArray) :
    lexInto (spaced items ++ [0]) cells =
        .ok (0, Function.update (store cells (tokensOf true items)) items.length none) ∧
      ∀ text, Printed items text →
        lexInto (text ++ [0]) cells = lexInto (spaced items ++ [0]) cells := by
  have hall := fun text (h : Printed items text) =>
    lexInto_printed h (hroom.trans_le (Nat.sub_le _ _)) hlast cells
  refine ⟨hall _ (spaced_printed hne), ?_⟩
  intro text h
  rw [hall text h, hall _ (spaced_printed hne)]

theorem lexInto_spaced_two :
    lexInto (spaced [.quotation ⟨39, [97], Or.inl rfl, by decide, by decide⟩,
        .operator .background] ++ [0]) (fun _ => none) =
      .ok (0, Function.update (store (fun _ => none) (tokensOf true
        [.quotation ⟨39, [97], Or.inl rfl, by decide, by decide⟩, .operator .background])) 2 none) :=
  (lexInto_spaced (by simp) (by simp [maxTokens]) (by simp [Item.isOpen, Operator.type]) _).1

end SystemsLab.CommandLine
