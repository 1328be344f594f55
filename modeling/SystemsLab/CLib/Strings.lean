import SystemsLab.CLib.Numbers

namespace SystemsLab.CLib

def isPunct (c : UInt8) : Bool :=
  (33 ≤ c && c ≤ 47) || (58 ≤ c && c ≤ 64) || (91 ≤ c && c ≤ 96) || (123 ≤ c && c ≤ 126)

/-- The next token of the text that `saveptr` points to, and where `saveptr` points afterwards. -/
def strtokR (delim : UInt8 → Bool) (s : Bytes) : Option (Bytes × Bytes) :=
  let t := s.dropWhile delim
  if t = [] then none
  else some (t.takeWhile fun c => !delim c, (t.dropWhile fun c => !delim c).drop 1)

variable {delim : UInt8 → Bool} {s token rest : Bytes}

lemma strtokR_sublist (h : strtokR delim s = some (token, rest)) :
    token.Sublist s ∧ rest.Sublist s := by
  simp only [strtokR] at h
  split_ifs at h
  simp only [Option.some.injEq, Prod.mk.injEq] at h
  obtain ⟨rfl, rfl⟩ := h
  have hs : (s.dropWhile delim).Sublist s := List.dropWhile_sublist delim
  exact ⟨(List.takeWhile_sublist _).trans hs,
    (List.drop_sublist 1 _).trans ((List.dropWhile_sublist _).trans hs)⟩

lemma strtokR_ne_nil (h : strtokR delim s = some (token, rest)) : token ≠ [] := by
  simp only [strtokR] at h
  split_ifs at h with hne
  simp only [Option.some.injEq, Prod.mk.injEq] at h
  obtain ⟨rfl, -⟩ := h
  cases ht : s.dropWhile delim with
  | nil => exact absurd ht hne
  | cons c t =>
    have hc : delim c = false := by
      have hnot := List.head_dropWhile_not delim (l := s) hne
      simpa [ht] using hnot
    simp [hc]

end SystemsLab.CLib
