import SystemsLab.CLib.Numerals
import SystemsLab.Executables.HeadTail

namespace SystemsLab.Executables

open CLib

variable {program value : Bytes} {n : UInt64} {z : ℤ}

def invalidNumber (program value : Bytes) : Bytes :=
  program ++ ascii ": invalid number of lines: '" ++ value ++ ascii "'" ++ [newline]

/-- `parse_line_count` of a program: the count, or what it writes to standard error. -/
def lineCountOf (program value : Bytes) : Except Bytes UInt64 :=
  let parsed := strtoull value
  if parsed.erange = true ∨ value = [] ∨ parsed.rest ≠ [] then .error (invalidNumber program value)
  else .ok (UInt64.ofNat parsed.value)

def Head.parseLineCount (value : Bytes) : Except Bytes UInt64 := lineCountOf (ascii "pa2_head") value

def Tail.parseLineCount (value : Bytes) : Except Bytes UInt64 := lineCountOf (ascii "pa2_tail") value

lemma lineCountOf_of_denotes (h : Denotes value z) : lineCountOf program value =
    if z.natAbs > ullongMax then .error (invalidNumber program value)
    else .ok (UInt64.ofNat (z % 2 ^ 64).toNat) := by
  rw [lineCountOf, strtoull_of_denotes h]
  split_ifs with hbig hbad hbad
  · rfl
  · exact absurd (Or.inl rfl) hbad
  · simp [h.ne_nil] at hbad
  · rfl

lemma lineCountOf_no_numeral (h : ∀ z, ¬ Denotes value z) :
    lineCountOf program value = .error (invalidNumber program value) := by
  refine if_pos ?_
  by_contra hread
  simp only [not_or, not_not] at hread
  obtain ⟨-, hne, hend⟩ := hread
  obtain ⟨z, hz⟩ := denotes_of_strtoull hend (by rw [hend]; exact Ne.symm hne)
  exact h z hz

structure ReadsCount (parseLineCount : Bytes → Except Bytes UInt64) (program value : Bytes) :
    Prop where
  stores : ∀ n, parseLineCount value = .ok n → Denotes value n.toNat
  accepts : ∀ n : UInt64, Denotes value n.toNat → parseLineCount value = .ok n
  refuses : (∀ n : UInt64, ¬ Denotes value n.toNat) →
    parseLineCount value = .error (invalidNumber program value)

def WrapsToCount (z : ℤ) : Prop := -2 ^ 64 < z ∧ z < 0

lemma exists_count (hlow : 0 ≤ z) (hhigh : z < 2 ^ 64) : ∃ n : UInt64, z = n.toNat := by
  refine ⟨UInt64.ofNat z.toNat, ?_⟩
  rw [UInt64.toNat_ofNat', Nat.mod_eq_of_lt (by omega), Int.toNat_of_nonneg hlow]

lemma lineCountOf_of_count (h : Denotes value n.toNat) : lineCountOf program value = .ok n := by
  have hlt := n.toNat_lt
  rw [lineCountOf_of_denotes h, if_neg (by simp only [ullongMax]; omega)]
  have hmod : ((n.toNat : ℤ) % 2 ^ 64).toNat = n.toNat := by omega
  rw [hmod, UInt64.ofNat_toNat]

lemma readsCount_iff : ReadsCount (lineCountOf program) program value ↔
    ¬ ∃ z, Denotes value z ∧ WrapsToCount z := by
  constructor
  · rintro hreads ⟨z, hz, hlow, hneg⟩
    have hread : lineCountOf program value = _ := lineCountOf_of_denotes hz
    rw [if_neg (by simp only [ullongMax]; omega)] at hread
    have heq := hz.unique (hreads.stores _ hread)
    omega
  · intro hnowrap
    by_cases hcount : ∃ n : UInt64, Denotes value n.toNat
    · obtain ⟨n, hn⟩ := hcount
      have hread : lineCountOf program value = .ok n := lineCountOf_of_count hn
      refine ⟨fun m hm => ?_, fun m hm => lineCountOf_of_count hm, fun hno => absurd hn (hno n)⟩
      rw [hread] at hm
      exact Except.ok.inj hm ▸ hn
    · rw [not_exists] at hcount
      have hrefused : lineCountOf program value = .error (invalidNumber program value) := by
        by_cases hnumeral : ∃ z, Denotes value z
        · obtain ⟨z, hz⟩ := hnumeral
          rw [lineCountOf_of_denotes hz, if_pos]
          by_contra hsmall
          simp only [ullongMax] at hsmall
          have hlow : 0 ≤ z := by
            by_contra hneg
            exact hnowrap ⟨z, hz, by omega, by omega⟩
          obtain ⟨n, rfl⟩ := exists_count hlow (by omega)
          exact hcount n hz
        · exact lineCountOf_no_numeral (not_exists.mp hnumeral)
      refine ⟨fun n hn => ?_, fun n hn => absurd hn (hcount n), fun _ => hrefused⟩
      rw [hrefused] at hn
      cases hn

theorem line_counts_validated_iff (value : Bytes) :
    (ReadsCount Head.parseLineCount (ascii "pa2_head") value ↔
      ¬ ∃ z, Denotes value z ∧ WrapsToCount z) ∧
    (ReadsCount Tail.parseLineCount (ascii "pa2_tail") value ↔
      ¬ ∃ z, Denotes value z ∧ WrapsToCount z) :=
  ⟨readsCount_iff, readsCount_iff⟩

theorem minus_one_is_a_count : ¬∀ value : Bytes,
    ReadsCount Head.parseLineCount (ascii "pa2_head") value ∧
      ReadsCount Tail.parseLineCount (ascii "pa2_tail") value := by
  intro h
  have hminus : Denotes (ascii "-1") (-1) := .minus (digits_of_all (by decide) rfl)
  have hread : Head.parseLineCount (ascii "-1") = .ok (UInt64.ofNat (2 ^ 64 - 1)) :=
    lineCountOf_of_denotes hminus
  exact absurd (hminus.unique ((h (ascii "-1")).1.stores _ hread)) (by decide)

end SystemsLab.Executables
