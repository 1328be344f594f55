import SystemsLab.CLib.Bytes

namespace SystemsLab.CLib

def isSpace (c : UInt8) : Bool := c == 32 || (9 ≤ c && c ≤ 13)

def isDigit (c : UInt8) : Bool := 48 ≤ c && c ≤ 57

def digitsValue (ds : Bytes) : ℕ := ds.foldl (fun n d => 10 * n + (d.toNat - 48)) 0

def ullongMax : ℕ := 2 ^ 64 - 1

def splitSign : Bytes → Bool × Bytes
  | c :: s => if c = 45 then (true, s) else if c = 43 then (false, s) else (false, c :: s)
  | [] => (false, [])

/-- `rest` is the text that `endptr` points to, `erange` says that `errno` was set. -/
structure Strtoull where
  value : ℕ
  rest : Bytes
  erange : Bool

/-- The numeral is read as an unbounded integer. Above `ULLONG_MAX` the result is `ULLONG_MAX`
with `ERANGE`, otherwise a minus sign negates the value modulo `2 ^ 64`. -/
def strtoull (s : Bytes) : Strtoull :=
  let (negative, t) := splitSign (s.dropWhile isSpace)
  let digits := t.takeWhile isDigit
  let n := digitsValue digits
  if digits = [] then ⟨0, s, false⟩
  else if n > ullongMax then ⟨ullongMax, t.dropWhile isDigit, true⟩
  else if negative then ⟨(2 ^ 64 - n) % 2 ^ 64, t.dropWhile isDigit, false⟩
  else ⟨n, t.dropWhile isDigit, false⟩

structure Strtoll where
  value : ℤ
  rest : Bytes
  erange : Bool

/-- The numeral is read as an unbounded integer and clamped to 64 bits, with `ERANGE` if that
changes it. -/
def strtoll (s : Bytes) : Strtoll :=
  let (negative, t) := splitSign (s.dropWhile isSpace)
  let digits := t.takeWhile isDigit
  let n : ℤ := if negative then -digitsValue digits else digitsValue digits
  if digits = [] then ⟨0, s, false⟩
  else if n > 2 ^ 63 - 1 then ⟨2 ^ 63 - 1, t.dropWhile isDigit, true⟩
  else if n < -2 ^ 63 then ⟨-2 ^ 63, t.dropWhile isDigit, true⟩
  else ⟨n, t.dropWhile isDigit, false⟩

end SystemsLab.CLib
