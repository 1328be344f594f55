import SystemsLab.CLib.Bytes

namespace SystemsLab.Search

open CLib

def asciiLower (c : UInt8) : UInt8 := if 65 ≤ c ∧ c ≤ 90 then c + 32 else c

def isWordSep (c : UInt8) : Bool := c == 32 || c == 9

def hashLowerBytes (data : Bytes) : UInt32 :=
  data.foldl (fun hash c => (hash ^^^ (asciiLower c).toUInt32) * 16777619) 2166136261

/-- The first `len` bytes agree up to case. `phrase_equal_bytes` is the same function. -/
def caseEqualBytes (a b : Bytes) (len : ℕ) : Bool :=
  (a.take len).map asciiLower == (b.take len).map asciiLower

def digitsOf (value : ℕ) : Bytes :=
  if value = 0 then [] else UInt8.ofNat (48 + value % 10) :: digitsOf (value / 10)
termination_by value
decreasing_by omega

def writeU32 (value : UInt32) : Bytes :=
  if value = 0 then [48] else (digitsOf value.toNat).reverse

lemma length_dropWhile_lt {p : UInt8 → Bool} {c : UInt8} {s : Bytes} (hp : p c = true) :
    ((c :: s).dropWhile p).length < (c :: s).length := by
  rw [List.dropWhile_cons_of_pos hp]
  exact Nat.lt_succ_of_le (List.length_dropWhile_le p s)

lemma no_sep_of_any {word : Bytes} (h : word.any isWordSep = false) :
    ∀ c ∈ word, isWordSep c = false := by
  intro c hc
  exact Bool.eq_false_iff.mpr (List.any_eq_false.mp h c hc)

lemma isWordSep_of_dropWhile {c : UInt8} {s t : Bytes} (h : s.dropWhile isWordSep = c :: t) :
    isWordSep c = false := by
  have hne : s.dropWhile isWordSep ≠ [] := by
    rw [h]
    exact nofun
  have hd := List.head_dropWhile_not isWordSep hne
  simpa only [h, List.head_cons] using hd

/-- The words of the text `s` that begins at `pos`, with their positions. -/
def wordsFrom (pos : ℕ) (s : Bytes) : List (ℕ × Bytes) :=
  match _h : s.dropWhile isWordSep with
  | [] => []
  | c :: t =>
    let start := pos + (s.length - (c :: t).length)
    let word := (c :: t).takeWhile (!isWordSep ·)
    (start, word) :: wordsFrom (start + word.length) ((c :: t).dropWhile (!isWordSep ·))
termination_by s.length
decreasing_by
  have hc := isWordSep_of_dropWhile _h
  have hlt := length_dropWhile_lt (p := (!isWordSep ·)) (s := t) (c := c) (by rw [hc]; rfl)
  have hle := List.length_dropWhile_le isWordSep s
  rw [_h] at hle
  omega

lemma wordsFrom_nil {pos : ℕ} {s : Bytes} (h : s.dropWhile isWordSep = []) :
    wordsFrom pos s = [] := by
  rw [wordsFrom]
  split
  · rfl
  · next hs =>
    rw [h] at hs
    cases hs

lemma wordsFrom_cons {pos : ℕ} {s t : Bytes} {c : UInt8} (h : s.dropWhile isWordSep = c :: t) :
    wordsFrom pos s =
      (pos + (s.length - (c :: t).length), (c :: t).takeWhile (!isWordSep ·)) ::
        wordsFrom (pos + (s.length - (c :: t).length) +
          ((c :: t).takeWhile (!isWordSep ·)).length) ((c :: t).dropWhile (!isWordSep ·)) := by
  rw [wordsFrom]
  split
  · next hs =>
    rw [h] at hs
    cases hs
  · next hs =>
    rw [h] at hs
    obtain ⟨rfl, rfl⟩ := List.cons.inj hs
    rfl
def newline : UInt8 := 10

def linesOf (s : Bytes) : List (Bytes × Bool) :=
  match s with
  | [] => []
  | c :: t =>
    let line := (c :: t).takeWhile (· ≠ newline)
    match _h : (c :: t).dropWhile (· ≠ newline) with
    | [] => [(line, false)]
    | _ :: rest => (line, true) :: linesOf rest
termination_by s.length
decreasing_by
  have hle := List.length_dropWhile_le (· ≠ newline) (c :: t)
  rw [_h, List.length_cons] at hle
  omega

lemma linesOf_newline {line rest : Bytes} (h : newline ∉ line) :
    linesOf (line ++ newline :: rest) = (line, true) :: linesOf rest := by
  have hall : ∀ c ∈ line, (decide (c ≠ newline)) = true := by
    intro c hc
    rw [decide_eq_true_eq]
    rintro rfl
    exact h hc
  have htake : (line ++ newline :: rest).takeWhile (· ≠ newline) = line := by
    rw [List.takeWhile_append_of_pos hall, List.takeWhile_cons_of_neg (by simp), List.append_nil]
  have hdrop : (line ++ newline :: rest).dropWhile (· ≠ newline) = newline :: rest := by
    rw [List.dropWhile_append_of_pos hall, List.dropWhile_cons_of_neg (by simp)]
  cases hl : line ++ newline :: rest with
  | nil => simp at hl
  | cons c t =>
    rw [hl] at htake hdrop
    rw [linesOf]
    split
    · next h0 =>
      rw [hdrop] at h0
      cases h0
    · next c' rest' h1 =>
      rw [hdrop] at h1
      obtain ⟨rfl, rfl⟩ := List.cons.inj h1
      rw [htake]

end SystemsLab.Search
