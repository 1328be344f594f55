import SystemsLab.MiniShell.Tokens

namespace SystemsLab.MiniShell

open CLib

def maxArgs : ℕ := 100

/-- What a cell of `args` points to: a literal of the program, or a place in the command. -/
inductive Pointer
  | null
  | literal (text : Bytes)
  | into (offset : ℕ)
deriving DecidableEq

def Pointer.string (cmd : Bytes) : Pointer → Option Bytes
  | .null => none
  | .literal text => some text
  | .into offset => some (cstr (cmd.drop offset))

/-- `PARSE_ARGS_ERROR`, or an access outside of the command or of `args`. -/
inductive Failure
  | tooManyArguments (err : Bytes)
  | outOfBounds
deriving DecidableEq

def tooMany : Failure := .tooManyArguments (ascii "Error: Too many arguments\n")

structure State where
  cmd : Bytes
  cursor : ℕ
  args : List Pointer
  i : ℕ
deriving DecidableEq

namespace State

/-- The byte that `cursor + n` points to. -/
def byte (s : State) (n : ℕ) : Except Failure UInt8 :=
  match s.cmd[s.cursor + n]? with
  | some c => .ok c
  | none => .error .outOfBounds

def advance (s : State) (n : ℕ) : State := { s with cursor := s.cursor + n }

def terminate (s : State) : State := { s with cmd := s.cmd.set s.cursor 0 }

/-- A write of the cell with the number `i`. -/
def write (s : State) (p : Pointer) : Except Failure State :=
  if s.i < s.args.length then .ok { s with args := s.args.set s.i p } else .error .outOfBounds

def push (s : State) (p : Pointer) : Except Failure State := do
  let s ← s.write p
  return { s with i := s.i + 1 }

def checkCount (s : State) : Except Failure Unit :=
  if s.i ≥ maxArgs - 1 then .error tooMany else .ok ()

end State

def inWord (c : UInt8) : Bool := c != 0 && c != space && c != less && c != greater && c != bar

def skipSpaces (s : State) : Except Failure State :=
  if h : s.cursor < s.cmd.length then
    if s.cmd[s.cursor] = space then skipSpaces (s.terminate.advance 1) else .ok s
  else .error .outOfBounds
termination_by s.cmd.length - s.cursor
decreasing_by
  simp only [State.terminate, State.advance, List.length_set]
  omega

def skipWord (s : State) : Except Failure State :=
  if h : s.cursor < s.cmd.length then
    if inWord s.cmd[s.cursor] then skipWord (s.advance 1) else .ok s
  else .error .outOfBounds
termination_by s.cmd.length - s.cursor
decreasing_by
  simp only [State.advance]
  omega

def pushLiteral (s : State) (text : Bytes) (n : ℕ) : Except Failure State := do
  let s ← s.push (.literal text)
  return s.advance n

/-- The operator that starts with the byte `c` under the cursor. -/
def pushOperator (s : State) (c : UInt8) : Except Failure State :=
  if c = less then pushLiteral s [less] 1
  else if c = bar then pushLiteral s [bar] 1
  else do
    let next ← s.byte 1
    if next = greater then pushLiteral s [greater, greater] 2 else pushLiteral s [greater] 1

/-- The rest of a round from a word on. `inl` leaves the loop. -/
def parseWord (s : State) : Except Failure (State ⊕ State) := do
  let s ← s.push (.into s.cursor)
  let s ← skipWord s
  let c ← s.byte 0
  if c = 0 then return .inl s
  else if c = space then return .inr (s.terminate.advance 1)
  else
    s.checkCount
    let s ← pushOperator s.terminate c
    return .inr s

def parseToken (s : State) (c : UInt8) : Except Failure (State ⊕ State) := do
  s.checkCount
  if isOperator c then
    let s ← pushOperator s c
    return .inr s
  else parseWord s

def parseRound (s : State) : Except Failure (State ⊕ State) := do
  let s ← skipSpaces s
  let c ← s.byte 0
  if c = 0 then return .inl s else parseToken s c

section Progress

variable {s s' : State} {c : UInt8}

structure Progress (s s' : State) : Prop where
  length_eq : s'.cmd.length = s.cmd.length
  cursor_le : s.cursor ≤ s'.cursor

lemma bind_ok {α β : Type} {x : Except Failure α} {f : α → Except Failure β} {b : β}
    (h : (x >>= f) = .ok b) : ∃ a, x = .ok a ∧ f a = .ok b := by
  cases x with
  | error e => cases h
  | ok a => exact ⟨a, rfl, h⟩

lemma skipSpaces_progress (h : skipSpaces s = .ok s') : Progress s s' := by
  induction s using skipSpaces.induct with
  | case1 s hin hspace ih =>
    rw [skipSpaces, dif_pos hin, if_pos hspace] at h
    obtain ⟨hlen, hle⟩ := ih h
    simp only [State.terminate, State.advance, List.length_set] at hlen hle
    exact ⟨hlen, by omega⟩
  | case2 s hin hspace =>
    rw [skipSpaces, dif_pos hin, if_neg hspace] at h
    cases h
    exact ⟨rfl, le_rfl⟩
  | case3 s hin =>
    rw [skipSpaces, dif_neg hin] at h
    cases h

lemma skipWord_progress (h : skipWord s = .ok s') : Progress s s' := by
  induction s using skipWord.induct with
  | case1 s hin hword ih =>
    rw [skipWord, dif_pos hin, if_pos hword] at h
    obtain ⟨hlen, hle⟩ := ih h
    simp only [State.advance] at hlen hle
    exact ⟨hlen, by omega⟩
  | case2 s hin hword =>
    rw [skipWord, dif_pos hin, if_neg hword] at h
    cases h
    exact ⟨rfl, le_rfl⟩
  | case3 s hin =>
    rw [skipWord, dif_neg hin] at h
    cases h

lemma push_progress {p : Pointer} (h : s.push p = .ok s') : s'.cmd = s.cmd ∧ s'.cursor = s.cursor := by
  obtain ⟨t, hwrite, hnext⟩ := bind_ok h
  cases hnext
  rw [State.write] at hwrite
  split_ifs at hwrite
  cases hwrite
  exact ⟨rfl, rfl⟩

lemma pushLiteral_progress {text : Bytes} {n : ℕ} (h : pushLiteral s text n = .ok s') :
    s'.cmd = s.cmd ∧ s'.cursor = s.cursor + n := by
  obtain ⟨t, hpush, hnext⟩ := bind_ok h
  cases hnext
  obtain ⟨hcmd, hcursor⟩ := push_progress hpush
  exact ⟨hcmd, by rw [← hcursor]; rfl⟩

lemma pushOperator_progress (h : pushOperator s c = .ok s') :
    s'.cmd = s.cmd ∧ s.cursor < s'.cursor := by
  rw [pushOperator] at h
  split_ifs at h
  · obtain ⟨hcmd, hcursor⟩ := pushLiteral_progress h
    exact ⟨hcmd, by omega⟩
  · obtain ⟨hcmd, hcursor⟩ := pushLiteral_progress h
    exact ⟨hcmd, by omega⟩
  · obtain ⟨next, -, hpush⟩ := bind_ok h
    split_ifs at hpush
    · obtain ⟨hcmd, hcursor⟩ := pushLiteral_progress hpush
      exact ⟨hcmd, by omega⟩
    · obtain ⟨hcmd, hcursor⟩ := pushLiteral_progress hpush
      exact ⟨hcmd, by omega⟩

lemma parseWord_progress (h : parseWord s = .ok (.inr s')) :
    s'.cmd.length = s.cmd.length ∧ s.cursor < s'.cursor := by
  obtain ⟨t, hpush, h⟩ := bind_ok h
  obtain ⟨u, hskip, h⟩ := bind_ok h
  obtain ⟨c, -, h⟩ := bind_ok h
  obtain ⟨hcmd, hcursor⟩ := push_progress hpush
  obtain ⟨hlen, hle⟩ := skipWord_progress hskip
  rw [hcmd] at hlen
  split_ifs at h
  · cases h
  · cases h
    simp only [State.terminate, State.advance, List.length_set]
    exact ⟨hlen, by omega⟩
  · obtain ⟨-, -, h⟩ := bind_ok h
    obtain ⟨v, hoperator, h⟩ := bind_ok h
    cases h
    obtain ⟨hcmd', hlt⟩ := pushOperator_progress hoperator
    rw [hcmd']
    simp only [State.terminate, List.length_set] at hlt ⊢
    exact ⟨hlen, by omega⟩

lemma parseRound_progress (h : parseRound s = .ok (.inr s')) :
    s'.cmd.length = s.cmd.length ∧ s.cursor < s'.cursor := by
  obtain ⟨t, hskip, h⟩ := bind_ok h
  obtain ⟨c, -, h⟩ := bind_ok h
  obtain ⟨hlen, hle⟩ := skipSpaces_progress hskip
  split_ifs at h
  · cases h
  · obtain ⟨-, -, h⟩ := bind_ok h
    split_ifs at h
    · obtain ⟨u, hoperator, h⟩ := bind_ok h
      cases h
      obtain ⟨hcmd, hlt⟩ := pushOperator_progress hoperator
      exact ⟨by rw [hcmd, hlen], by omega⟩
    · obtain ⟨hlen', hlt⟩ := parseWord_progress h
      exact ⟨hlen'.trans hlen, by omega⟩

end Progress

def parseFrom (s : State) : Except Failure State :=
  if hin : s.cursor < s.cmd.length then
    if s.cmd[s.cursor] = 0 then .ok s
    else
      match _hround : parseRound s with
      | .error failure => .error failure
      | .ok (.inl s') => .ok s'
      | .ok (.inr s') => parseFrom s'
  else .error .outOfBounds
termination_by s.cmd.length - s.cursor
decreasing_by
  obtain ⟨hlen, hlt⟩ := parseRound_progress _hround
  omega

/-- `parse_args`, for a command and an array of pointers. -/
def parseArgs (cmd : Bytes) (args : List Pointer) : Except Failure State := do
  let s ← parseFrom ⟨cmd, 0, args, 0⟩
  s.write .null

section Zipper

variable {seen rest behind : Bytes} {args : List Pointer} {i n : ℕ} {c : UInt8} {p : Pointer}
  {text : Bytes}

def zip (seen rest behind : Bytes) (args : List Pointer) (i : ℕ) : State :=
  ⟨seen ++ (rest ++ 0 :: behind), seen.length, args, i⟩

lemma cursor_lt_zip :
    (zip seen rest behind args i).cursor < (zip seen rest behind args i).cmd.length := by
  simp only [zip, List.length_append, List.length_cons]
  omega

lemma getElem_zip
    (h : (zip seen rest behind args i).cursor < (zip seen rest behind args i).cmd.length) :
    (zip seen rest behind args i).cmd[(zip seen rest behind args i).cursor] = rest.headD 0 := by
  simp only [zip]
  rw [List.getElem_append_right le_rfl]
  cases rest <;> simp

lemma byte_zip : (zip seen rest behind args i).byte 0 = .ok (rest.headD 0) := by
  simp only [State.byte, Nat.add_zero, List.getElem?_eq_getElem cursor_lt_zip, getElem_zip]

lemma byte_zip_next : (zip seen (c :: rest) behind args i).byte 1 = .ok (rest.headD 0) := by
  have hcmd : (zip seen (c :: rest) behind args i).byte 1 =
      (zip (seen ++ [c]) rest behind args i).byte 0 := by
    simp only [State.byte, zip, List.cons_append, List.append_assoc, List.length_append,
      List.length_singleton, List.nil_append, Nat.add_zero]
  rw [hcmd, byte_zip]

lemma advance_zip : (zip seen (c :: rest) behind args i).advance 1 =
    zip (seen ++ [c]) rest behind args i := by
  simp [State.advance, zip]

lemma terminate_zip : (zip seen (c :: rest) behind args i).terminate =
    zip seen (0 :: rest) behind args i := by
  simp [State.terminate, zip]

lemma push_zip (hroom : i < args.length) : (zip seen rest behind args i).push p =
    .ok (zip seen rest behind (args.set i p) (i + 1)) := by
  have hwrite : (zip seen rest behind args i).write p =
      .ok (zip seen rest behind (args.set i p) i) := if_pos hroom
  rw [State.push, hwrite]
  rfl

lemma skipSpaces_zip (seen rest behind : Bytes) (args : List Pointer) (i : ℕ) :
    ∃ zeros, skipSpaces (zip seen rest behind args i) =
      .ok (zip (seen ++ zeros) (rest.dropWhile (· == space)) behind args i) := by
  induction rest generalizing seen with
  | nil =>
    refine ⟨[], ?_⟩
    rw [skipSpaces, dif_pos cursor_lt_zip, getElem_zip, if_neg (by decide), List.append_nil]
    rfl
  | cons c rest ih =>
    rw [skipSpaces, dif_pos cursor_lt_zip, getElem_zip, List.headD_cons]
    by_cases hc : c = space
    · rw [if_pos hc, terminate_zip, advance_zip, List.dropWhile_cons_of_pos (by simpa using hc)]
      obtain ⟨zeros, hskip⟩ := ih (seen ++ [0])
      exact ⟨[0] ++ zeros, by rw [hskip, List.append_assoc]⟩
    · rw [if_neg hc, List.dropWhile_cons_of_neg (by simpa using hc)]
      exact ⟨[], by rw [List.append_nil]⟩

lemma inWord_eq (hc : c ≠ 0) : inWord c = isWordByte c := by
  have hc' : (c != 0) = true := bne_iff_ne.mpr hc
  rw [inWord, hc', isWordByte, isOperator]
  cases hspace : c == space <;> cases hless : c == less <;> cases hbar : c == bar <;>
    cases hgreater : c == greater <;> simp [bne, hspace, hless, hbar, hgreater]

lemma skipWord_zip (hnul : 0 ∉ rest) : skipWord (zip seen rest behind args i) =
    .ok (zip (seen ++ rest.takeWhile isWordByte) (rest.dropWhile isWordByte) behind args i) := by
  induction rest generalizing seen with
  | nil =>
    rw [skipWord, dif_pos cursor_lt_zip, getElem_zip, List.takeWhile_nil, List.append_nil]
    rfl
  | cons c rest ih =>
    obtain ⟨hc, hrest⟩ := not_or.mp (List.mem_cons.not.mp hnul)
    rw [skipWord, dif_pos cursor_lt_zip, getElem_zip, List.headD_cons, inWord_eq (Ne.symm hc)]
    by_cases hword : isWordByte c = true
    · rw [if_pos hword, advance_zip, ih hrest, List.takeWhile_cons_of_pos hword,
        List.dropWhile_cons_of_pos hword, List.append_assoc, List.singleton_append]
    · rw [if_neg hword, List.takeWhile_cons_of_neg hword, List.dropWhile_cons_of_neg hword,
        List.append_nil]

lemma pushLiteral_zip (hroom : i < args.length) :
    pushLiteral (zip seen (c :: rest) behind args i) text 1 =
      .ok (zip (seen ++ [c]) rest behind (args.set i (.literal text)) (i + 1)) := by
  rw [pushLiteral, push_zip hroom]
  exact congrArg Except.ok advance_zip

lemma pushOperator_zip (seen rest behind : Bytes) (b : UInt8) (hc : isOperator c = true)
    (hroom : i < args.length) : ∃ others, pushOperator (zip seen (b :: rest) behind args i) c =
      .ok (zip (seen ++ b :: others) (operatorAt c rest).2 behind
        (args.set i (.literal (operatorAt c rest).1)) (i + 1)) := by
  simp only [isOperator, Bool.or_eq_true, beq_iff_eq] at hc
  rcases hc with (rfl | rfl) | rfl
  · exact ⟨[], pushLiteral_zip hroom⟩
  · exact ⟨[], pushLiteral_zip hroom⟩
  · have hgreater : pushOperator (zip seen (b :: rest) behind args i) greater =
        if rest.headD 0 = greater then
          pushLiteral (zip seen (b :: rest) behind args i) [greater, greater] 2
        else pushLiteral (zip seen (b :: rest) behind args i) [greater] 1 := by
      rw [pushOperator, if_neg (by decide), if_neg (by decide), byte_zip_next]
      rfl
    rw [hgreater, operatorAt]
    cases rest with
    | nil => exact ⟨[], pushLiteral_zip hroom⟩
    | cons d rest =>
      by_cases hd : d = greater
      · subst hd
        refine ⟨[greater], ?_⟩
        rw [List.headD_cons, if_pos rfl, if_pos ⟨rfl, rfl⟩, pushLiteral, push_zip hroom]
        simp only [List.tail_cons]
        change Except.ok _ = _
        simp [State.advance, zip]
      · refine ⟨[], ?_⟩
        rw [List.headD_cons, if_neg hd, if_neg fun h => hd (Option.some.inj h.2), pushLiteral_zip hroom]

end Zipper

section Filling

variable {seen cmd more rest behind text : Bytes} {args : List Pointer} {i : ℕ} {p : Pointer}
  {done : List Bytes}

def Settled (seen : Bytes) (p : Pointer) (text : Bytes) : Prop :=
  p = .literal text ∨
    ∃ front back, seen = front ++ (text ++ 0 :: back) ∧ p = .into front.length ∧ 0 ∉ text

lemma Settled.append (h : Settled seen p text) (more : Bytes) : Settled (seen ++ more) p text := by
  rcases h with hliteral | ⟨front, back, rfl, hp, hnul⟩
  · exact Or.inl hliteral
  · refine Or.inr ⟨front, back ++ more, ?_, hp, hnul⟩
    simp only [List.append_assoc, List.cons_append]

lemma Settled.string_eq (h : Settled cmd p text) : p.string cmd = some text := by
  rcases h with rfl | ⟨front, back, rfl, rfl, hnul⟩
  · rfl
  · rw [Pointer.string, List.drop_left, cstr_append_nul hnul]

structure Filled (seen : Bytes) (args : List Pointer) (i : ℕ) (done : List Bytes) : Prop where
  length_eq : args.length = maxArgs
  count : i = done.length
  settled : ∀ (k : ℕ) (text : Bytes), done[k]? = some text →
    ∃ p, args[k]? = some p ∧ Settled seen p text

lemma Filled.append (h : Filled seen args i done) (more : Bytes) : Filled (seen ++ more) args i done :=
  { h with
    settled := fun (k : ℕ) (text : Bytes) hk => by
      obtain ⟨p, hget, hp⟩ := h.settled k text hk
      exact ⟨p, hget, hp.append more⟩ }

lemma Filled.push (h : Filled seen args i done) (hroom : i < args.length) (hp : Settled seen p text) :
    Filled seen (args.set i p) (i + 1) (done ++ [text]) where
  length_eq := by rw [List.length_set, h.length_eq]
  count := by rw [List.length_append, List.length_singleton, h.count]
  settled k t hk := by
    rcases lt_trichotomy k done.length with hlt | rfl | hgt
    · rw [List.getElem?_append_left hlt] at hk
      rw [List.getElem?_set_ne (by rw [h.count]; exact hlt.ne')]
      exact h.settled k t hk
    · rw [List.getElem?_concat_length] at hk
      obtain rfl := Option.some.inj hk
      rw [← h.count, List.getElem?_set_self hroom]
      exact ⟨p, rfl, hp⟩
    · rw [List.getElem?_eq_none (by rw [List.length_append, List.length_singleton]; exact hgt)] at hk
      exact absurd hk.symm (Option.some_ne_none t)

lemma Filled.word (h : Filled seen args i done) (hroom : i < args.length) (hnul : 0 ∉ text)
    (more : Bytes) : Filled (seen ++ (text ++ 0 :: more)) (args.set i (.into seen.length)) (i + 1)
      (done ++ [text]) :=
  (h.append (text ++ 0 :: more)).push hroom (Or.inr ⟨seen, more, rfl, rfl, hnul⟩)

inductive RoundSpec (rest behind : Bytes) (done : List Bytes) : Except Failure (State ⊕ State) → Prop
  | leaves {seen' : Bytes} {args' : List Pointer} {i' : ℕ}
      (hfilled : Filled (seen' ++ 0 :: behind) args' i' (done ++ tokens rest)) (hroom : i' < maxArgs) :
      RoundSpec rest behind done (.ok (.inl (zip seen' [] behind args' i')))
  | goesOn {seen' rest' : Bytes} {args' : List Pointer} {i' : ℕ} {found : List Bytes}
      (htokens : tokens rest = found ++ tokens rest') (hshort : rest'.length < rest.length)
      (hfilled : Filled seen' args' i' (done ++ found)) (hroom : i' < maxArgs) (hnul : 0 ∉ rest') :
      RoundSpec rest behind done (.ok (.inr (zip seen' rest' behind args' i')))
  | refuses (hmany : maxArgs ≤ done.length + (tokens rest).length) :
      RoundSpec rest behind done (.error tooMany)

lemma RoundSpec.later {rest' : Bytes} {found : List Bytes} {x : Except Failure (State ⊕ State)}
    (h : RoundSpec rest' behind (done ++ found) x) (htokens : tokens rest = found ++ tokens rest')
    (hle : rest'.length ≤ rest.length) : RoundSpec rest behind done x := by
  cases h with
  | leaves hfilled hroom =>
    rw [List.append_assoc, ← htokens] at hfilled
    exact .leaves hfilled hroom
  | goesOn htokens' hshort hfilled hroom hnul =>
    rw [htokens', ← List.append_assoc] at htokens
    rw [List.append_assoc] at hfilled
    exact .goesOn htokens (hshort.trans_le hle) hfilled hroom hnul
  | refuses hmany =>
    refine .refuses ?_
    rw [htokens, List.length_append]
    rw [List.length_append] at hmany
    omega

lemma checkCount_zip (hroom : i < maxArgs - 1) : (zip seen rest behind args i).checkCount = .ok () :=
  if_neg (not_le.mpr hroom)

lemma checkCount_zip_full (hfull : maxArgs - 1 ≤ i) :
    (zip seen rest behind args i).checkCount = .error tooMany :=
  if_pos hfull

lemma mem_operatorAt {c b : UInt8} (h : b ∈ (operatorAt c rest).2) : b ∈ rest := by
  rw [operatorAt] at h
  split_ifs at h
  · exact List.mem_of_mem_tail h
  · exact h

lemma parseOperator_spec {c b : UInt8} (hfilled : Filled (seen ++ [b]) args i done)
    (hcount : i < maxArgs - 1) (hc : isOperator c = true) (hnul : 0 ∉ rest) :
    RoundSpec (c :: rest) behind done (do
      let s ← pushOperator (zip seen (b :: rest) behind args i) c
      return .inr s) := by
  have hroom : i < args.length := by
    rw [hfilled.length_eq]
    omega
  obtain ⟨others, hpush⟩ := pushOperator_zip seen rest behind b hc hroom
  have htokens : tokens (c :: rest) = [(operatorAt c rest).1] ++ tokens (operatorAt c rest).2 :=
    tokens_operator hc
  rw [hpush]
  refine .goesOn htokens ?_ ?_ (by omega) fun h => hnul (mem_operatorAt h)
  · exact Nat.lt_succ_of_le (length_operatorAt_le c rest)
  · have hmore := hfilled.append others
    rw [List.append_assoc, List.singleton_append] at hmore
    exact hmore.push hroom (Or.inl rfl)

lemma tokens_ne_nil {c : UInt8} (rest : Bytes) (hc : c ≠ space) : 1 ≤ (tokens (c :: rest)).length := by
  cases hoperator : isOperator c with
  | true =>
    rw [tokens_operator hoperator]
    exact Nat.succ_pos _
  | false =>
    have hword : isWordByte c = true := by
      rw [isWordByte, hoperator, bne_iff_ne.mpr hc]
      rfl
    rw [tokens_word hword]
    exact Nat.succ_pos _

lemma parseWord_rest_spec (hfilled : ∀ more, Filled (seen ++ 0 :: more) args i done)
    (hcount : i < maxArgs) (hend : ∀ c ∈ rest.head?, isWordByte c = false) (hnul : 0 ∉ rest) :
    RoundSpec rest behind done (do
      let c ← (zip seen rest behind args i).byte 0
      if c = 0 then return .inl (zip seen rest behind args i)
      else if c = space then return .inr ((zip seen rest behind args i).terminate.advance 1)
      else
        (zip seen rest behind args i).checkCount
        let s ← pushOperator (zip seen rest behind args i).terminate c
        return .inr s) := by
  rw [byte_zip]
  cases rest with
  | nil =>
    have hdone := hfilled behind
    rw [← List.append_nil done, ← tokens.eq_1] at hdone
    exact .leaves hdone hcount
  | cons c rest =>
    obtain ⟨hc, hrest⟩ := not_or.mp (List.mem_cons.not.mp hnul)
    rw [List.headD_cons]
    change RoundSpec _ _ _ (if c = 0 then _ else _)
    rw [if_neg (Ne.symm hc), terminate_zip]
    by_cases hspace : c = space
    · subst hspace
      have htokens : tokens (space :: rest) = [] ++ tokens rest := by
        rw [tokens, if_pos rfl, List.nil_append]
      have hdone := hfilled []
      rw [← List.append_nil done] at hdone
      rw [if_pos rfl, advance_zip]
      exact .goesOn htokens (Nat.lt_succ_self _) hdone hcount hrest
    · have hoperator : isOperator c = true := by
        have hword := hend c rfl
        rw [isWordByte, bne_iff_ne.mpr hspace, Bool.true_and, Bool.not_eq_false'] at hword
        exact hword
      rw [if_neg hspace]
      by_cases hfull : maxArgs - 1 ≤ i
      · rw [checkCount_zip_full hfull]
        refine .refuses ?_
        have hone := tokens_ne_nil rest hspace
        have hlen := (hfilled []).count
        omega
      · rw [checkCount_zip (not_le.mp hfull)]
        exact parseOperator_spec (hfilled []) (not_le.mp hfull) hoperator hrest

lemma parseWord_spec {c : UInt8} (hfilled : Filled seen args i done) (hcount : i < maxArgs - 1)
    (hc : isWordByte c = true) (hnul : 0 ∉ c :: rest) :
    RoundSpec (c :: rest) behind done (parseWord (zip seen (c :: rest) behind args i)) := by
  have hroom : i < args.length := by
    rw [hfilled.length_eq]
    omega
  have htokens : tokens (c :: rest) = [(c :: rest).takeWhile isWordByte] ++
      tokens ((c :: rest).dropWhile isWordByte) := tokens_word hc
  have hwordNul : 0 ∉ (c :: rest).takeWhile isWordByte := fun h =>
    hnul ((List.takeWhile_sublist _).mem h)
  have hrestNul : 0 ∉ (c :: rest).dropWhile isWordByte := fun h =>
    hnul ((List.dropWhile_sublist _).mem h)
  have hend : ∀ d ∈ ((c :: rest).dropWhile isWordByte).head?, isWordByte d = false := by
    intro d hd
    have hne : (c :: rest).dropWhile isWordByte ≠ [] := by
      intro hnil
      rw [hnil] at hd
      cases hd
    have hhead := List.head_dropWhile_not isWordByte hne
    rw [List.head?_eq_some_head hne] at hd
    rwa [Option.some.inj hd] at hhead
  rw [parseWord, push_zip hroom]
  change RoundSpec _ _ _ (skipWord (zip seen (c :: rest) behind _ (i + 1)) >>= _)
  rw [skipWord_zip hnul]
  refine (parseWord_rest_spec (fun more => ?_) (by omega) hend hrestNul).later htokens
    (List.dropWhile_sublist _).length_le
  rw [List.append_assoc]
  exact hfilled.word hroom hwordNul more

lemma parseRound_spec (behind : Bytes) (hfilled : Filled seen args i done) (hcount : i < maxArgs)
    (hnul : 0 ∉ rest) :
    RoundSpec rest behind done (parseRound (zip seen rest behind args i)) := by
  obtain ⟨zeros, hskip⟩ := skipSpaces_zip seen rest behind args i
  have hlen := (List.dropWhile_sublist (· == space) (l := rest)).length_le
  have htokens : tokens rest = [] ++ tokens (rest.dropWhile (· == space)) := by
    rw [tokens_spaces, List.nil_append]
  have hrestNul : 0 ∉ rest.dropWhile (· == space) := fun h => hnul ((List.dropWhile_sublist _).mem h)
  have hmore := hfilled.append zeros
  rw [← List.append_nil done] at hmore
  rw [parseRound, hskip]
  change RoundSpec _ _ _ (State.byte _ 0 >>= _)
  rw [byte_zip]
  refine RoundSpec.later ?_ htokens hlen
  cases hrest : rest.dropWhile (· == space) with
  | nil =>
    have hdone : Filled (seen ++ zeros ++ 0 :: behind) args i (done ++ [] ++ tokens []) := by
      rw [tokens, List.append_nil]
      exact hmore.append (0 :: behind)
    exact .leaves hdone hcount
  | cons c others =>
    rw [hrest] at hrestNul
    have hspace : c ≠ space := by
      have hhead := List.head?_dropWhile_not (· == space) rest
      rw [hrest, List.head?_cons] at hhead
      simpa using hhead
    have hc : c ≠ 0 := fun hc => hrestNul (by rw [hc]; exact List.mem_cons_self)
    rw [List.headD_cons]
    change RoundSpec _ _ _ (if c = 0 then _ else parseToken _ c)
    rw [if_neg hc, parseToken]
    by_cases hfull : maxArgs - 1 ≤ i
    · rw [checkCount_zip_full hfull]
      refine .refuses ?_
      have hone := tokens_ne_nil others hspace
      have hlen' := hmore.count
      omega
    · rw [checkCount_zip (not_le.mp hfull)]
      change RoundSpec _ _ _ (if isOperator c = true then _ else _)
      cases hoperator : isOperator c with
      | true =>
        obtain ⟨-, hothers⟩ := not_or.mp (List.mem_cons.not.mp hrestNul)
        exact parseOperator_spec (hmore.append [c]) (not_le.mp hfull) hoperator hothers
      | false =>
        have hword : isWordByte c = true := by
          rw [isWordByte, hoperator, bne_iff_ne.mpr hspace]
          rfl
        exact parseWord_spec hmore (not_le.mp hfull) hword hrestNul

lemma parseFrom_spec (behind : Bytes) (hfilled : Filled seen args i done) (hcount : i < maxArgs)
    (hnul : 0 ∉ rest) :
    RoundSpec rest behind done ((parseFrom (zip seen rest behind args i)).map Sum.inl) := by
  induction hlen : rest.length using Nat.strong_induction_on generalizing seen rest args i done with
  | _ len ih =>
    rw [parseFrom, dif_pos cursor_lt_zip, getElem_zip]
    cases hrest : rest with
    | nil =>
      have hdone : Filled (seen ++ 0 :: behind) args i (done ++ tokens []) := by
        rw [tokens, List.append_nil]
        exact hfilled.append (0 :: behind)
      exact .leaves hdone hcount
    | cons c others =>
      have hc : c ≠ 0 := fun hc => hnul (by rw [hrest, hc]; exact List.mem_cons_self)
      have hround := parseRound_spec behind hfilled hcount hnul
      rw [List.headD_cons, if_neg hc, ← hrest]
      split
      · next failure hresult =>
        rw [hresult] at hround
        exact hround
      · next s' hresult =>
        rw [hresult] at hround
        exact hround
      · next s' hresult =>
        rw [hresult] at hround
        cases hround with
        | goesOn htokens hshort hmore hroom hnul' =>
          exact (ih _ (hlen ▸ hshort) hmore hroom hnul' rfl).later htokens hshort.le

end Filling

section Cells

variable {cmd : Bytes} {args : List Pointer} {i : ℕ} {done : List Bytes}

lemma Filled.strings (h : Filled cmd args i done) (hroom : i < args.length) :
    ((args.set i .null).take (done.length + 1)).map (Pointer.string cmd) = done.map some ++ [none] := by
  apply List.ext_getElem?
  intro k
  rw [List.getElem?_map, List.getElem?_take]
  rcases lt_trichotomy k done.length with hlt | rfl | hgt
  · obtain ⟨p, hget, hp⟩ := h.settled k done[k] (List.getElem?_eq_getElem hlt)
    rw [if_pos (by omega), List.getElem?_set_ne (by rw [h.count]; exact hlt.ne'), hget,
      List.getElem?_append_left (by rwa [List.length_map]), List.getElem?_map,
      List.getElem?_eq_getElem hlt]
    exact congrArg some hp.string_eq
  · have hlast : (done.map some ++ [none])[done.length]? = some none := by
      rw [← List.length_map some, List.getElem?_concat_length]
    rw [if_pos (Nat.lt_succ_self _), ← h.count, List.getElem?_set_self hroom, h.count, hlast]
    rfl
  · have hlen : (done.map some ++ [none]).length ≤ k := by
      rw [List.length_append, List.length_map, List.length_singleton]
      exact hgt
    rw [if_neg (by omega), List.getElem?_eq_none hlen]
    rfl

end Cells

theorem parse_args_tokens (command behind : Bytes) (args : List Pointer) (hnul : 0 ∉ command)
    (hargs : args.length = maxArgs) :
    ((∃ final, parseArgs (command ++ 0 :: behind) args = .ok final) ↔
        (tokens command).length ≤ maxArgs - 1) ∧
      (∀ final, parseArgs (command ++ 0 :: behind) args = .ok final →
        (final.args.take ((tokens command).length + 1)).map (Pointer.string final.cmd) =
          (tokens command).map some ++ [none]) ∧
      parseArgs (command ++ 0 :: behind) args ≠ .error .outOfBounds := by
  have hstart : Filled [] args 0 [] := ⟨hargs, rfl, fun k text hk => by simp at hk⟩
  have hloop := parseFrom_spec behind hstart (by decide) hnul
  have hparse : parseArgs (command ++ 0 :: behind) args =
      (parseFrom (zip [] command behind args 0) >>= fun s => s.write .null) := rfl
  rw [hparse]
  cases hresult : parseFrom (zip [] command behind args 0) with
  | ok s =>
    rw [hresult] at hloop
    cases hloop with
    | @leaves seen' args' i' hfilled hroom =>
      rw [List.nil_append] at hfilled
      have hcell : i' < args'.length := hfilled.length_eq ▸ hroom
      have hwrite : (zip seen' [] behind args' i').write .null =
          .ok (zip seen' [] behind (args'.set i' .null) i') := if_pos hcell
      change ((∃ final, State.write _ .null = _) ↔ _) ∧ (∀ final, State.write _ .null = _ → _) ∧
        State.write _ .null ≠ _
      rw [hwrite]
      refine ⟨⟨fun _ => ?_, fun _ => ⟨_, rfl⟩⟩, fun final hok => ?_, fun herror => by cases herror⟩
      · have hcount := hfilled.count
        omega
      · rw [← Except.ok.inj hok]
        exact hfilled.strings hcell
  | error failure =>
    rw [hresult] at hloop
    cases hloop with
    | refuses hmany =>
      refine ⟨⟨?_, fun hfew => ?_⟩, ?_, fun herror => by cases herror⟩
      · rintro ⟨final, hok⟩
        cases hok
      · simp only [List.length_nil, maxArgs] at hmany hfew
        omega
      · intro final hok
        cases hok

theorem parse_args_tokens_tight :
    ∃ final, parseArgs (ascii "a>>b" ++ 0 :: []) (List.replicate maxArgs .null) = .ok final ∧
      (final.args.take 4).map (Pointer.string final.cmd) =
        [some (ascii "a"), some (ascii ">>"), some (ascii "b"), none] := by
  have htokens : tokens (ascii "a>>b") = [ascii "a", ascii ">>", ascii "b"] := by
    simp [ascii, tokens, operatorAt, isOperator, isWordByte, space, less, greater, bar]
  obtain ⟨hok, hcells, -⟩ := parse_args_tokens (ascii "a>>b") [] (List.replicate maxArgs .null)
    (by decide) List.length_replicate
  obtain ⟨final, hfinal⟩ := hok.mpr (by rw [htokens]; decide)
  have hstrings := hcells final hfinal
  rw [htokens] at hstrings
  exact ⟨final, hfinal, hstrings⟩

end SystemsLab.MiniShell
