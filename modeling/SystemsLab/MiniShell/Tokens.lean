import SystemsLab.CLib.Bytes

namespace SystemsLab.MiniShell

open CLib

def space : UInt8 := 32
def less : UInt8 := 60
def greater : UInt8 := 62
def bar : UInt8 := 124

def isOperator (c : UInt8) : Bool := c == less || c == bar || c == greater

def isWordByte (c : UInt8) : Bool := c != space && !isOperator c

/-- The operator that starts with a byte, and the text behind it. Two adjacent `>` are one. -/
def operatorAt (c : UInt8) (s : Bytes) : Bytes × Bytes :=
  if c = greater ∧ s.head? = some greater then ([greater, greater], s.tail) else ([c], s)

variable {c : UInt8} {s : Bytes}

lemma length_operatorAt_le (c : UInt8) (s : Bytes) : (operatorAt c s).2.length ≤ s.length := by
  rw [operatorAt]
  split_ifs
  · rw [List.length_tail]
    exact Nat.sub_le _ _
  · exact le_rfl

def tokens : Bytes → List Bytes
  | [] => []
  | c :: s =>
    if c = space then tokens s
    else if isOperator c then (operatorAt c s).1 :: tokens (operatorAt c s).2
    else (c :: s.takeWhile isWordByte) :: tokens (s.dropWhile isWordByte)
termination_by s => s.length
decreasing_by
  · exact Nat.lt_succ_self _
  · exact Nat.lt_succ_of_le (length_operatorAt_le c s)
  · exact Nat.lt_succ_of_le (List.dropWhile_sublist _).length_le

lemma tokens_spaces (s : Bytes) : tokens (s.dropWhile (· == space)) = tokens s := by
  induction s with
  | nil => rfl
  | cons c s ih =>
    by_cases hc : c = space
    · rw [List.dropWhile_cons_of_pos (by simpa using hc), ih, tokens.eq_2, if_pos hc]
    · rw [List.dropWhile_cons_of_neg (by simpa using hc)]

lemma tokens_operator (hc : isOperator c = true) :
    tokens (c :: s) = (operatorAt c s).1 :: tokens (operatorAt c s).2 := by
  have hspace : c ≠ space := by
    rintro rfl
    exact absurd hc (by decide)
  rw [tokens, if_neg hspace, if_pos hc]

lemma tokens_word (hc : isWordByte c = true) : tokens (c :: s) =
    (c :: s).takeWhile isWordByte :: tokens ((c :: s).dropWhile isWordByte) := by
  have hkinds := hc
  simp only [isWordByte, Bool.and_eq_true, bne_iff_ne, Bool.not_eq_true'] at hkinds
  rw [List.takeWhile_cons_of_pos hc, List.dropWhile_cons_of_pos hc, tokens, if_neg hkinds.1,
    if_neg (by simp [hkinds.2])]

end SystemsLab.MiniShell
