import Mathlib.Data.List.Basic
import Mathlib.Data.List.Infix
import Mathlib.Data.Nat.Notation

namespace SystemsLab.Streams

/-- How a call of `read` or `write` ends: with `EINTR`, with another error, or with at most `k` items. -/
inductive Answer
  | interrupted
  | failed
  | upTo (k : ℕ)
deriving DecidableEq

/-- The answers that a loop meets with another call. -/
structure Retries where
  interrupted : Bool
  nothing : Bool
deriving DecidableEq

variable {B S : Type} {p q : Retries} {answers reads writes left : List Answer} {data : List B}

/-- What is written of the data, whether all of it, and the answers that are left. A descriptor without
answers takes everything. -/
def writeAll (p : Retries) : List Answer → List B → List B × Bool × List Answer
  | answers, [] => ([], true, answers)
  | [], b :: data => (b :: data, true, [])
  | .interrupted :: answers, b :: data =>
    if p.interrupted then writeAll p answers (b :: data) else ([], false, answers)
  | .failed :: answers, _ :: _ => ([], false, answers)
  | .upTo 0 :: answers, b :: data =>
    if p.nothing then writeAll p answers (b :: data) else ([], false, answers)
  | .upTo (k + 1) :: answers, b :: data =>
    let (taken, ok, left) := writeAll p answers (data.drop k)
    (b :: data.take k ++ taken, ok, left)

def writePieces (p : Retries) : List Answer → List (List B) → List B × Bool × List Answer
  | answers, [] => ([], true, answers)
  | answers, piece :: pieces =>
    match writeAll p answers piece with
    | (taken, false, left) => (taken, false, left)
    | (taken, true, left) =>
      let (more, ok, left) := writePieces p left pieces
      (taken ++ more, ok, left)

/-- How many items a read asks for and gets, if there are as many. A read in front of the end returns
one at least. -/
def readCount (q : Retries) (size : ℕ) : List Answer → Option ℕ × List Answer
  | [] => (some size, [])
  | .interrupted :: answers => if q.interrupted then readCount q size answers else (none, answers)
  | .failed :: answers => (none, answers)
  | .upTo k :: answers => (some (min size (max 1 k)), answers)

/-- What a chunk becomes, in pieces that are written one after another. How the input is cut into
chunks is all the same. -/
structure Machine (B S : Type) where
  step : S → List B → List (List B) × S
  step_nil : ∀ s, step s [] = ([], s)
  flatten_append : ∀ s a b, (step s (a ++ b)).1.flatten = (step s a).1.flatten ++ (step (step s a).2 b).1.flatten
  state_append : ∀ s a b, (step s (a ++ b)).2 = (step (step s a).2 b).2

namespace Machine

def text (m : Machine B S) (s : S) (src : List B) : List B := (m.step s src).1.flatten

def after (m : Machine B S) (s : S) (src : List B) : S := (m.step s src).2

def plain (B : Type) : Machine B Unit where
  step _ chunk := if chunk = [] then ([], ()) else ([chunk], ())
  step_nil _ := if_pos rfl
  flatten_append _ a b := by
    by_cases ha : a = [] <;> by_cases hb : b = [] <;> simp [ha, hb]
  state_append _ _ _ := rfl

lemma text_plain (src : List B) : (plain B).text () src = src := by
  change (if src = [] then ([], ()) else ([src], ())).1.flatten = src
  split_ifs with h
  · exact h.symm
  · exact List.append_nil src

end Machine

inductive Ending
  | atEnd
  | readFailed
  | writeFailed
deriving DecidableEq

structure Relayed (B S : Type) where
  out : List B
  ending : Ending
  state : S
  rest : List B
  writes : List Answer

def relay (m : Machine B S) (q p : Retries) (size : ℕ) (reads writes : List Answer) (s : S)
    (src : List B) : Relayed B S :=
  match readCount q size reads with
  | (none, _) => ⟨[], .readFailed, s, src, writes⟩
  | (some n, reads) =>
    if _h : src.take n = [] then ⟨[], .atEnd, s, src, writes⟩
    else
      match writePieces p writes (m.step s (src.take n)).1 with
      | (taken, false, writes) => ⟨taken, .writeFailed, s, src.drop n, writes⟩
      | (taken, true, writes) =>
        let r := relay m q p size reads writes (m.step s (src.take n)).2 (src.drop n)
        { r with out := taken ++ r.out }
termination_by src.length
decreasing_by
  rw [List.take_eq_nil_iff, not_or] at _h
  have hpos := List.length_pos_iff.mpr _h.2
  rw [List.length_drop]
  omega

/-- Answers that a loop does not give up at. -/
def Harmless (p : Retries) (answers : List Answer) : Prop :=
  ∀ a ∈ answers, a ≠ .failed ∧ (a = .interrupted → p.interrupted = true) ∧ (a = .upTo 0 → p.nothing = true)

instance (p : Retries) (answers : List Answer) : Decidable (Harmless p answers) :=
  inferInstanceAs (Decidable (∀ a ∈ answers, a ≠ .failed ∧ (a = .interrupted → p.interrupted = true) ∧
    (a = .upTo 0 → p.nothing = true)))

lemma Harmless.tail {a : Answer} (h : Harmless p (a :: answers)) : Harmless p answers :=
  fun b hb => h b (List.mem_cons_of_mem a hb)

lemma Harmless.of_suffix (h : Harmless p answers) (hleft : left <:+ answers) : Harmless p left :=
  fun a ha => h a (hleft.subset ha)

structure Wrote (p : Retries) (answers : List Answer) (data : List B)
    (written : List B × Bool × List Answer) : Prop where
  isPrefix : written.1 <+: data
  all : written.2.1 = true → written.1 = data
  suffix : written.2.2 <:+ answers
  succeeds : Harmless p answers → written.2.1 = true

lemma writeAll_wrote (p : Retries) (answers : List Answer) (data : List B) :
    Wrote p answers data (writeAll p answers data) := by
  induction answers generalizing data with
  | nil => cases data <;> exact ⟨List.prefix_rfl, fun _ => rfl, List.suffix_rfl, fun _ => rfl⟩
  | cons a answers ih =>
    cases data with
    | nil =>
      rw [writeAll]
      exact ⟨List.prefix_rfl, fun _ => rfl, List.suffix_rfl, fun _ => rfl⟩
    | cons b data =>
      have hgives : (¬ Harmless p (a :: answers)) → Wrote p (a :: answers) (b :: data) ([], false, answers) :=
        fun hbad => ⟨List.nil_prefix, fun h => (Bool.false_ne_true h).elim, List.suffix_cons a answers,
          fun h => absurd h hbad⟩
      have hagain : Wrote p (a :: answers) (b :: data) (writeAll p answers (b :: data)) := by
        have h := ih (b :: data)
        exact ⟨h.isPrefix, h.all, h.suffix.trans (List.suffix_cons a answers),
          fun hok => h.succeeds hok.tail⟩
      match a with
      | .failed => exact hgives fun h => (h .failed List.mem_cons_self).1 rfl
      | .interrupted =>
        rw [writeAll]
        split_ifs with hretry
        · exact hagain
        · exact hgives fun h => hretry ((h .interrupted List.mem_cons_self).2.1 rfl)
      | .upTo 0 =>
        rw [writeAll]
        split_ifs with hretry
        · exact hagain
        · exact hgives fun h => hretry ((h (.upTo 0) List.mem_cons_self).2.2 rfl)
      | .upTo (k + 1) =>
        have h := ih (data.drop k)
        have hsplit : b :: data = b :: data.take k ++ data.drop k := by
          rw [List.cons_append, List.take_append_drop]
        rw [writeAll]
        refine ⟨?_, fun hok => ?_, h.suffix.trans (List.suffix_cons _ _), fun hok => h.succeeds hok.tail⟩
        · rw [hsplit]
          exact (List.prefix_append_right_inj _).mpr h.isPrefix
        · rw [hsplit]
          exact congrArg (b :: data.take k ++ ·) (h.all hok)

lemma writePieces_wrote (p : Retries) (answers : List Answer) (pieces : List (List B)) :
    Wrote p answers pieces.flatten (writePieces p answers pieces) := by
  induction pieces generalizing answers with
  | nil => exact ⟨List.prefix_rfl, fun _ => rfl, List.suffix_rfl, fun _ => rfl⟩
  | cons piece pieces ih =>
    have h := writeAll_wrote p answers piece
    rw [writePieces, List.flatten_cons]
    generalize writeAll p answers piece = written at h ⊢
    obtain ⟨taken, ok, left⟩ := written
    cases ok with
    | false =>
      exact ⟨h.isPrefix.trans (List.prefix_append _ _), fun hok => (Bool.false_ne_true hok).elim, h.suffix,
        h.succeeds⟩
    | true =>
      have hmore := ih left
      have htaken : taken = piece := h.all rfl
      rw [htaken]
      refine ⟨(List.prefix_append_right_inj piece).mpr hmore.isPrefix, fun hok => ?_,
        hmore.suffix.trans h.suffix, fun hok => hmore.succeeds (hok.of_suffix h.suffix)⟩
      exact congrArg (piece ++ ·) (hmore.all hok)

structure Asked (q : Retries) (answers : List Answer) (asked : Option ℕ × List Answer) : Prop where
  pos : ∀ n, asked.1 = some n → 0 < n
  suffix : asked.2 <:+ answers
  succeeds : Harmless q answers → asked.1 ≠ none

lemma readCount_asked (q : Retries) {size : ℕ} (hsize : 0 < size) (answers : List Answer) :
    Asked q answers (readCount q size answers) := by
  induction answers with
  | nil =>
    refine ⟨fun n hn => ?_, List.suffix_rfl, fun _ => Option.some_ne_none size⟩
    rwa [← Option.some.inj hn]
  | cons a answers ih =>
    have hgives : (¬ Harmless q (a :: answers)) → Asked q (a :: answers) (none, answers) :=
      fun hbad => ⟨nofun, List.suffix_cons a answers, fun h => absurd h hbad⟩
    match a with
    | .failed => exact hgives fun h => (h .failed List.mem_cons_self).1 rfl
    | .interrupted =>
      rw [readCount]
      split_ifs with hretry
      · exact ⟨ih.pos, ih.suffix.trans (List.suffix_cons _ _), fun hok => ih.succeeds hok.tail⟩
      · exact hgives fun h => hretry ((h .interrupted List.mem_cons_self).2.1 rfl)
    | .upTo k =>
      refine ⟨fun n hn => ?_, List.suffix_cons _ _, fun _ => Option.some_ne_none _⟩
      rw [← Option.some.inj hn]
      omega

structure RelaySpec (m : Machine B S) (q p : Retries) (reads writes : List Answer) (s : S) (src : List B)
    (r : Relayed B S) : Prop where
  seen : ∃ seen, src = seen ++ r.rest ∧ r.out <+: m.text s seen ∧
    (r.ending ≠ .writeFailed → r.out = m.text s seen ∧ r.state = m.after s seen)
  rest_eq : r.ending = .atEnd → r.rest = []
  suffix : r.writes <:+ writes
  succeeds : Harmless q reads → Harmless p writes → r.ending = .atEnd

lemma relay_spec (m : Machine B S) (q p : Retries) {size : ℕ} (hsize : 0 < size)
    (reads writes : List Answer) (s : S) (src : List B) :
    RelaySpec m q p reads writes s src (relay m q p size reads writes s src) := by
  induction hlen : src.length using Nat.strong_induction_on generalizing reads writes s src with
  | _ len ih =>
    have hasked := readCount_asked q hsize reads
    rw [relay]
    generalize readCount q size reads = asked at hasked ⊢
    obtain ⟨count, reads'⟩ := asked
    cases count with
    | none =>
      refine ⟨⟨[], rfl, List.nil_prefix, fun _ => ?_⟩, nofun, List.suffix_rfl,
        fun hreads => absurd rfl (hasked.succeeds hreads)⟩
      rw [Machine.text, Machine.after, m.step_nil]
      exact ⟨rfl, rfl⟩
    | some n =>
      have hn := hasked.pos n rfl
      simp only
      split_ifs with hend
      · have hsrc : src = [] := (List.take_eq_nil_iff.mp hend).resolve_left hn.ne'
        refine ⟨⟨[], rfl, List.nil_prefix, fun _ => ?_⟩, fun _ => hsrc, List.suffix_rfl, fun _ _ => rfl⟩
        rw [Machine.text, Machine.after, m.step_nil]
        exact ⟨rfl, rfl⟩
      · have hwrote := writePieces_wrote p writes (m.step s (src.take n)).1
        generalize writePieces p writes (m.step s (src.take n)).1 = written at hwrote ⊢
        obtain ⟨taken, ok, writes'⟩ := written
        cases ok with
        | false =>
          exact ⟨⟨src.take n, (List.take_append_drop n src).symm, hwrote.isPrefix,
            fun h => absurd rfl h⟩, nofun, hwrote.suffix,
            fun _ hwrites => (Bool.false_ne_true (hwrote.succeeds hwrites)).elim⟩
        | true =>
          have hshort : (src.drop n).length < len := by
            rw [List.take_eq_nil_iff, not_or] at hend
            have hpos := List.length_pos_iff.mpr hend.2
            rw [List.length_drop]
            omega
          have hnext := ih _ hshort reads' writes' (m.step s (src.take n)).2 (src.drop n) rfl
          have htaken : taken = m.text s (src.take n) := hwrote.all rfl
          obtain ⟨seen, hseen, hprefix, hexact⟩ := hnext.seen
          have htext : m.text s (src.take n ++ seen) =
              taken ++ m.text (m.step s (src.take n)).2 seen := by
            rw [htaken]
            exact m.flatten_append s _ seen
          refine ⟨⟨src.take n ++ seen, ?_, ?_, fun hending => ?_⟩, hnext.rest_eq,
            hnext.suffix.trans hwrote.suffix, fun hreads hwrites =>
              hnext.succeeds (hreads.of_suffix hasked.suffix) (hwrites.of_suffix hwrote.suffix)⟩
          · rw [List.append_assoc, ← hseen, List.take_append_drop]
          · rw [htext]
            exact (List.prefix_append_right_inj taken).mpr hprefix
          · obtain ⟨hout, hstate⟩ := hexact hending
            refine ⟨?_, ?_⟩
            · rw [htext, ← hout]
            · rw [Machine.after, m.state_append]
              exact hstate

lemma RelaySpec.out_eq {m : Machine B S} {s : S} {src : List B} {r : Relayed B S}
    (h : RelaySpec m q p reads writes s src r) (hend : r.ending = .atEnd) : r.out = m.text s src := by
  obtain ⟨seen, hseen, -, hexact⟩ := h.seen
  rw [hseen, h.rest_eq hend, List.append_nil]
  exact (hexact (by rw [hend]; decide)).1

end SystemsLab.Streams
