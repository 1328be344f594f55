import SystemsLab.CLib.Bytes
import Mathlib.Data.List.Basic

namespace SystemsLab.CLib

def dash : UInt8 := 45

def colon : UInt8 := 58

def semicolon : UInt8 := 59

def questionMark : UInt8 := 63

/-- `optind`, and the letters of its element that are still to be handled. -/
structure Getopt where
  optind : ℕ
  nextchar : Bytes

namespace Getopt

variable (optstring : Bytes) (argv : List Bytes)

/-- What `getopt` answers at a letter. -/
def answer (c : UInt8) : UInt8 :=
  if c ∈ optstring ∧ c ≠ colon ∧ c ≠ semicolon then c else questionMark

/-- The next letter of an element. Its last one moves `optind` on. -/
def letter (optind : ℕ) (c : UInt8) (rest : Bytes) : Option UInt8 × Getopt :=
  (some (answer optstring c), ⟨if rest = [] then optind + 1 else optind, rest⟩)

/-- A call of `getopt`: `none` stands for the answer -1. -/
def next (d : Getopt) : Option UInt8 × Getopt :=
  match d.nextchar with
  | c :: rest => letter optstring d.optind c rest
  | [] =>
    match argv[d.optind]? with
    | none => (none, d)
    | some (a :: c :: rest) =>
      if a :: c :: rest = [dash, dash] then (none, ⟨d.optind + 1, []⟩)
      else if a = dash then letter optstring d.optind c rest
      else (none, d)
    | some _ => (none, d)

def left (argv : List Bytes) (d : Getopt) : ℕ :=
  d.nextchar.length +
    ((argv.drop (if d.nextchar = [] then d.optind else d.optind + 1)).map List.length).sum

variable {optstring argv} {c : UInt8} {d d' : Getopt} {k : ℕ} {cs rest : Bytes}

lemma left_letter (argv : List Bytes) (k : ℕ) (c : UInt8) (rest : Bytes) :
    left argv (letter optstring k c rest).2 =
      rest.length + ((argv.drop (k + 1)).map List.length).sum := by
  rw [letter, left]
  cases rest <;> rfl

lemma next_letter (k : ℕ) (c : UInt8) (rest : Bytes) :
    next optstring argv ⟨k, c :: rest⟩ = letter optstring k c rest := rfl

lemma next_end (harg : argv[k]? = none) : next optstring argv ⟨k, []⟩ = (none, ⟨k, []⟩) := by
  simp only [next, harg]

lemma next_dashes (harg : argv[k]? = some [dash, dash]) :
    next optstring argv ⟨k, []⟩ = (none, ⟨k + 1, []⟩) := by
  simp only [next, harg, if_pos]

lemma next_element (harg : argv[k]? = some (dash :: c :: rest)) (hne : c :: rest ≠ [dash]) :
    next optstring argv ⟨k, []⟩ = letter optstring k c rest := by
  have hdashes : dash :: c :: rest ≠ [dash, dash] := fun h => hne (List.cons.inj h).2
  simp only [next, harg, if_neg hdashes, if_pos]

lemma next_operand {arg : Bytes} (harg : argv[k]? = some arg)
    (hop : ∀ c rest, arg ≠ dash :: c :: rest) :
    next optstring argv ⟨k, []⟩ = (none, ⟨k, []⟩) := by
  cases arg with
  | nil => simp only [next, harg]
  | cons a cs =>
    cases cs with
    | nil => simp only [next, harg]
    | cons c rest =>
      have ha : a ≠ dash := fun ha => hop c rest (by rw [ha])
      have hdashes : a :: c :: rest ≠ [dash, dash] := fun h => ha (List.cons.inj h).1
      simp only [next, harg, if_neg hdashes, if_neg ha]

lemma next_start (optstring : Bytes) (argv : List Bytes) (k : ℕ) :
    (next optstring argv ⟨k, []⟩).1 = none ∨ ∃ c rest, argv[k]? = some (dash :: c :: rest) ∧
      next optstring argv ⟨k, []⟩ = letter optstring k c rest := by
  cases harg : argv[k]? with
  | none => exact Or.inl (congrArg Prod.fst (next_end harg))
  | some arg =>
    by_cases hop : ∃ c rest, arg = dash :: c :: rest
    · obtain ⟨c, rest, rfl⟩ := hop
      by_cases hdash : c :: rest = [dash]
      · rw [hdash] at harg
        exact Or.inl (congrArg Prod.fst (next_dashes harg))
      · exact Or.inr ⟨c, rest, rfl, next_element harg hdash⟩
    · rw [not_exists] at hop
      exact Or.inl (congrArg Prod.fst (next_operand harg fun c rest h => hop c ⟨rest, h⟩))

lemma next_shorter (h : next optstring argv d = (some c, d')) : left argv d' < left argv d := by
  obtain ⟨k, chars⟩ := d
  cases chars with
  | cons a rest =>
    have hd : d' = (letter optstring k a rest).2 := (congrArg Prod.snd h).symm
    rw [hd, left_letter, left, if_neg (List.cons_ne_nil a rest), List.length_cons]
    exact Nat.add_lt_add_right (Nat.lt_succ_self rest.length) _
  | nil =>
    rcases next_start optstring argv k with hnone | ⟨a, rest, harg, hnext⟩
    · rw [h] at hnone
      exact absurd hnone (Option.some_ne_none c)
    · obtain ⟨hk, hget⟩ := List.getElem?_eq_some_iff.mp harg
      have hd : d' = (letter optstring k a rest).2 := by rw [← hnext, h]
      rw [hd, left_letter, left, if_pos rfl, List.drop_eq_getElem_cons hk, hget, List.map_cons,
        List.sum_cons, List.length_cons, List.length_cons, List.length_nil]
      omega

section Loop

variable {σ ρ : Type*} (handle : UInt8 → ℕ → σ → ρ ⊕ σ) (finish : ℕ → σ → ρ)

/-- The loop over the options. What handles a letter also gets `optind`, and may leave the loop. -/
def options (optstring : Bytes) (argv : List Bytes) (d : Getopt) (s : σ) : ρ :=
  match _h : next optstring argv d with
  | (none, d') => finish d'.optind s
  | (some c, d') =>
    match handle c d'.optind s with
    | .inl result => result
    | .inr s' => options optstring argv d' s'
termination_by left argv d
decreasing_by exact next_shorter _h

variable {handle finish} {s : σ}

lemma options_finish (h : next optstring argv d = (none, d')) :
    options handle finish optstring argv d s = finish d'.optind s := by
  rw [options]
  split
  · next d₁ hnext => rw [(Prod.mk.inj (h.symm.trans hnext)).2]
  · next c d₁ hnext => exact absurd (Prod.mk.inj (h.symm.trans hnext)).1 (Option.some_ne_none c).symm

lemma options_handle (h : next optstring argv d = (some c, d')) :
    options handle finish optstring argv d s =
      (handle c d'.optind s).elim id (options handle finish optstring argv d') := by
  rw [options]
  split
  · next d₁ hnext => exact absurd (Prod.mk.inj (hnext.symm.trans h)).1 (Option.some_ne_none c).symm
  · next c₁ d₁ hnext =>
    obtain ⟨hc, rfl⟩ := Prod.mk.inj (h.symm.trans hnext)
    obtain rfl := Option.some.inj hc
    cases handle c d'.optind s <;> rfl

lemma options_enter (harg : argv[k]? = some (dash :: c :: rest)) (hne : c :: rest ≠ [dash]) :
    options handle finish optstring argv ⟨k, []⟩ s =
      options handle finish optstring argv ⟨k, c :: rest⟩ s := by
  rw [options_handle (next_element harg hne), options_handle (next_letter k c rest)]

end Loop

end Getopt

end SystemsLab.CLib
