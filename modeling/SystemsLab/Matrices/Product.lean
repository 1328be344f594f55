import SystemsLab.Matrices.Text
import SystemsLab.Threads.ForkJoin
import Mathlib.Algebra.BigOperators.Group.Finset.Basic
import Mathlib.Data.List.GetD

/-! The program of week 11: threads reduce a matrix and a vector modulo 10 and multiply them, some rows
at a time. -/

namespace SystemsLab.Matrices

open CLib Threads Threads.ForkJoin

inductive Thread
  | vector
  | reduce (i : ℕ)
  | multiply (i : ℕ)
deriving DecidableEq

/-- The arrays of the program, where `data i` is the result of the thread for a row, and its files. -/
inductive Region
  | row (i : ℕ)
  | vector
  | data (i : ℕ)
  | result
  | inputMatrix
  | inputVector
  | resultFile
  | answerFile
deriving DecidableEq

inductive Value
  | words (ws : List UInt64)
  | text (b : Bytes)

namespace Value

def toWords : Value → List UInt64
  | words ws => ws
  | text _ => []

def modify (f : List UInt64 → List UInt64) : Value → Value
  | words ws => words (f ws)
  | text b => text b

end Value

/-- The variables of a thread: its loop counter, its sum, and whether it has stored the sum. -/
structure Local where
  i : ℕ
  sum : UInt64
  stored : Bool

def ownRegion : Thread → Region
  | .vector => .vector
  | .reduce i => .row i
  | .multiply i => .data i

/-- A round of `thread_modulo_reduction`. -/
def threadModuloReduction (size : ℕ) (l : Local) (array : Value) : Option (Local × Value) :=
  if l.i < size then some ({ l with i := l.i + 1 }, array.modify (·.modify l.i (· % 10))) else none

/-- A round of `thread_matrix_vector_mult`, or the last assignment. -/
def threadMatrixVectorMult (size : ℕ) (l : Local) (result row vector : Value) : Option (Local × Value) :=
  if l.i < size then
    some ({ l with
      i := l.i + 1
      sum := l.sum + row.toWords.getD l.i 0 * vector.toWords.getD l.i 0 }, result)
  else if !l.stored then some ({ l with stored := true }, .words [l.sum])
  else none

def threadStep (colSize : ℕ) (t : Thread) (l : Local) (m : Region → Value) : Option (Local × Value) :=
  match t with
  | .vector => threadModuloReduction colSize l (m .vector)
  | .reduce i => threadModuloReduction colSize l (m (.row i))
  | .multiply i => threadMatrixVectorMult colSize l (m (.data i)) (m (.row i)) (m .vector)

/-- The threads, for rows of `colSize` columns. -/
def workers (colSize : ℕ) : Workers Thread Region Value Local where
  own := ownRegion
  uses t r := r = ownRegion t ∨ ∃ i, t = .multiply i ∧ (r = .row i ∨ r = .vector)
  start _ := ⟨0, 0, false⟩
  step := threadStep colSize
  frame {t l m m'} h := by
    cases t with
    | vector =>
      simp only [threadStep, h .vector (Or.inl rfl)]
    | reduce i =>
      simp only [threadStep, h (.row i) (Or.inl rfl)]
    | multiply i =>
      simp only [threadStep, h (.data i) (Or.inl rfl), h (.row i) (Or.inr ⟨i, rfl, Or.inl rfl⟩),
        h .vector (Or.inr ⟨i, rfl, Or.inr rfl⟩)]

/-- `single_threaded_matrix_multiplication` on a row. -/
def singleThreaded (colSize : ℕ) (row vector : List UInt64) : UInt64 :=
  (List.range colSize).foldl (fun sum j => sum + row.getD j 0 * vector.getD j 0) 0

section Program

variable (garbage : ℕ → Bytes) (rowSize colSize cores : ℕ)

def rowsOf (m : Region → Value) : List (List UInt64) :=
  (List.range rowSize).map fun i => (m (.row i)).toWords

def assignInputMatrix : Assignment Region Value where
  target := .inputMatrix
  uses r := ∃ i, r = .row i
  value m := .text ((fputsMatrix garbage (rowsOf rowSize m)).getD [])
  frame {m m'} h := by
    have hrows : rowsOf rowSize m = rowsOf rowSize m' :=
      List.map_congr_left fun i _ => congrArg Value.toWords (h (.row i) ⟨i, rfl⟩)
    rw [hrows]

def assignInputVector : Assignment Region Value where
  target := .inputVector
  uses r := r = .vector
  value m := .text ((fputsVector garbage (m .vector).toWords .row).getD [])
  frame {m m'} h := by rw [h .vector rfl]

def clearData (i : ℕ) : Assignment Region Value where
  target := .data i
  uses _ := False
  value _ := .words [0]
  frame _ := rfl

/-- `result[i] = t_mvm_data_arr[i].result`. -/
def collectData (i : ℕ) : Assignment Region Value where
  target := .result
  uses r := r = .result ∨ r = .data i
  value m := (m .result).modify (·.set i ((m (.data i)).toWords.getD 0 0))
  frame {m m'} h := by rw [h .result (Or.inl rfl), h (.data i) (Or.inr rfl)]

def assignResultFile : Assignment Region Value where
  target := .resultFile
  uses r := r = .result
  value m := .text ((fputsVector garbage (m .result).toWords .column).getD [])
  frame {m m'} h := by rw [h .result rfl]

/-- The file of `single_threaded_matrix_multiplication`. -/
def assignAnswerFile : Assignment Region Value where
  target := .answerFile
  uses r := r = .vector ∨ ∃ i, r = .row i
  value m := .text ((fputsVector garbage
    ((rowsOf rowSize m).map fun row => singleThreaded colSize row (m .vector).toWords) .column).getD [])
  frame {m m'} h := by
    have hrows : rowsOf rowSize m = rowsOf rowSize m' :=
      List.map_congr_left fun i _ => congrArg Value.toWords (h (.row i) (Or.inr ⟨i, rfl⟩))
    rw [hrows, h .vector (Or.inl rfl)]

abbrev Commands : Type := List (Command Thread Region Value)

/-- The loop over the batches, where `body` stands for what is done with the rows of one. -/
def batches (hcores : 0 < cores) (body : ℕ → ℕ → Commands) (batch : ℕ) : Commands :=
  if batch * cores < rowSize then
    let batchStart := batch * cores
    let batchEnd := if batchStart + cores < rowSize then batchStart + cores else rowSize
    body batchStart (batchEnd - batchStart) ++ batches hcores body (batch + 1)
  else []
termination_by rowSize - batch * cores
decreasing_by
  rw [Nat.succ_mul]
  omega

def loop (f : ℕ → Commands) (start n : ℕ) : Commands := (List.range' start n).flatMap f

def reduceBatch (start n : ℕ) : Commands :=
  loop (fun i => [.create (.reduce i)]) start n ++ loop (fun i => [.join (.reduce i)]) start n

def multiplyBatch (start n : ℕ) : Commands :=
  loop (fun i => [.assign (clearData i), .create (.multiply i)]) start n ++
    (loop (fun i => [.join (.multiply i)]) start n ++ loop (fun i => [.assign (collectData i)]) start n)

/-- `main`, built with `DEBUG`. -/
def main (hcores : 0 < cores) : Commands :=
  .create .vector :: (batches rowSize cores hcores reduceBatch 0 ++
    ([.join .vector, .assign (assignInputMatrix garbage rowSize), .assign (assignInputVector garbage)] ++
      (batches rowSize cores hcores multiplyBatch 0 ++
        [.assign (assignResultFile garbage), .assign (assignAnswerFile garbage rowSize colSize)])))

end Program

/-- The loop of `thread_modulo_reduction` over `n` cells from `i` on. -/
def reduceFrom : ℕ → ℕ → List UInt64 → List UInt64
  | _, 0, ws => ws
  | i, n + 1, ws => reduceFrom (i + 1) n (ws.modify i (· % 10))

def sumFrom (row vector : List UInt64) (i n : ℕ) (sum : UInt64) : UInt64 :=
  (List.range' i n).foldl (fun sum j => sum + row.getD j 0 * vector.getD j 0) sum

def finish (colSize : ℕ) (t : Thread) (m : Region → Value) : Value :=
  match t with
  | .vector => (m .vector).modify (reduceFrom 0 colSize)
  | .reduce i => (m (.row i)).modify (reduceFrom 0 colSize)
  | .multiply i => .words [singleThreaded colSize (m (.row i)).toWords (m .vector).toWords]

section Workers

variable {colSize : ℕ} {t : Thread} {m : Region → Value} {i n : ℕ} {l : Local}

lemma modify_modify (f g : List UInt64 → List UInt64) (v : Value) :
    (v.modify f).modify g = v.modify (fun ws => g (f ws)) := by
  cases v <;> rfl

lemma modify_id (v : Value) : v.modify (fun ws => ws) = v := by
  cases v <;> rfl

lemma reduceFrom_eq (seen rest : List UInt64) :
    reduceFrom seen.length rest.length (seen ++ rest) = seen ++ rest.map (· % 10) := by
  induction rest generalizing seen with
  | nil => rfl
  | cons v rest ih =>
    have hmodify : (seen ++ v :: rest).modify seen.length (· % 10) = (seen ++ [v % 10]) ++ rest := by
      rw [List.modify_eq_take_drop, List.take_left, List.drop_left, List.append_assoc]
      rfl
    have hnext := ih (seen ++ [v % 10])
    rw [List.length_append, List.length_singleton] at hnext
    rw [List.length_cons, reduceFrom, hmodify, hnext, List.append_assoc]
    rfl

lemma reduceFrom_all {ws : List UInt64} (h : ws.length = colSize) :
    reduceFrom 0 colSize ws = ws.map (· % 10) := by
  rw [← h]
  exact reduceFrom_eq [] ws

lemma alone_reduces
    (hstep : ∀ l m, threadStep colSize t l m = threadModuloReduction colSize l (m (ownRegion t)))
    (h : i + n = colSize) (sum : UInt64) (stored : Bool) (m : Region → Value) :
    Alone (workers colSize) t ⟨i, sum, stored⟩ m
      (Function.update m (ownRegion t) ((m (ownRegion t)).modify (reduceFrom i n))) := by
  induction n generalizing i m with
  | zero =>
    have hend : reduceFrom i 0 = fun ws => ws := rfl
    rw [hend, modify_id, Function.update_eq_self]
    apply Alone.returned
    change threadStep colSize t ⟨i, sum, stored⟩ m = none
    rw [hstep, threadModuloReduction, if_neg (by dsimp only; omega)]
  | succ n ih =>
    have hround : threadStep colSize t ⟨i, sum, stored⟩ m =
        some (⟨i + 1, sum, stored⟩, (m (ownRegion t)).modify (·.modify i (· % 10))) := by
      rw [hstep, threadModuloReduction, if_pos (by dsimp only; omega)]
    have hnext := ih (i := i + 1) (by omega)
      (Function.update m (ownRegion t) ((m (ownRegion t)).modify (·.modify i (· % 10))))
    rw [Function.update_self, Function.update_idem, modify_modify] at hnext
    exact .step hround hnext

lemma alone_multiplies (k : ℕ) (h : i + n = colSize) (sum : UInt64) (m : Region → Value) :
    Alone (workers colSize) (.multiply k) ⟨i, sum, false⟩ m
      (Function.update m (.data k)
        (.words [sumFrom (m (.row k)).toWords (m .vector).toWords i n sum])) := by
  induction n generalizing i sum with
  | zero =>
    have hstore : threadStep colSize (.multiply k) ⟨i, sum, false⟩ m =
        some (⟨i, sum, true⟩, .words [sum]) := by
      rw [threadStep, threadMatrixVectorMult, if_neg (by dsimp only; omega)]
      rfl
    refine .step hstore (.returned ?_)
    change threadMatrixVectorMult colSize ⟨i, sum, true⟩ _ _ _ = none
    rw [threadMatrixVectorMult, if_neg (by dsimp only; omega)]
    rfl
  | succ n ih =>
    have hround : threadStep colSize (.multiply k) ⟨i, sum, false⟩ m =
        some (⟨i + 1, sum + (m (.row k)).toWords.getD i 0 * (m .vector).toWords.getD i 0, false⟩,
          m (.data k)) := by
      rw [threadStep, threadMatrixVectorMult, if_pos (by dsimp only; omega)]
    have hnext := ih (i := i + 1) (by omega)
      (sum + (m (.row k)).toWords.getD i 0 * (m .vector).toWords.getD i 0)
    refine .step hround ?_
    change Alone _ _ _ (Function.update m (.data k) (m (.data k))) _
    rw [Function.update_eq_self]
    exact hnext

lemma alone_finishes (t : Thread) (m : Region → Value) :
    Alone (workers colSize) t ((workers colSize).start t) m
      (Function.update m ((workers colSize).own t) (finish colSize t m)) := by
  cases t with
  | vector => exact alone_reduces (fun _ _ => rfl) (Nat.zero_add _) 0 false m
  | reduce i => exact alone_reduces (fun _ _ => rfl) (Nat.zero_add _) 0 false m
  | multiply i =>
    have hfinish : finish colSize (.multiply i) m =
        .words [sumFrom (m (.row i)).toWords (m .vector).toWords 0 colSize 0] := by
      rw [finish, singleThreaded, List.range_eq_range']
      rfl
    rw [hfinish]
    exact alone_multiplies i (Nat.zero_add _) 0 m

end Workers

section Alive

variable {rowSize colSize cores start n i k : ℕ} {hcores : 0 < cores} {r : Region} {live : Thread → Prop}
  {body : ℕ → ℕ → Commands} {rest : Commands} {batch : ℕ}

lemma apart_reduce (h : i ≠ k) : Apart (workers colSize) (.reduce i) (.reduce k) := by
  simp [Apart, workers, ownRegion, h, h.symm]

lemma apart_vector : Apart (workers colSize) (.reduce i) .vector := by
  simp [Apart, workers, ownRegion]

lemma apart_multiply (colSize : ℕ) (h : i ≠ k) : Apart (workers colSize) (.multiply i) (.multiply k) := by
  simp [Apart, workers, ownRegion, h, h.symm]

lemma reduce_injective : Function.Injective Thread.reduce := fun _ _ => Thread.reduce.inj

lemma multiply_injective : Function.Injective Thread.multiply := fun _ _ => Thread.multiply.inj

lemma fine_reduceBatch (start n : ℕ) (hrest : Fine (workers colSize) rest (· = .vector)) :
    Fine (workers colSize) (reduceBatch start n ++ rest) (· = .vector) := by
  rw [reduceBatch, List.append_assoc]
  have hothers : ∀ j, ¬ Thread.reduce j = .vector := fun j => Thread.noConfusion
  refine Fine.congr ?_ (among_none Thread.reduce (· = .vector) start)
  apply fine_loop (Among Thread.reduce (· = .vector) start) _ (fine_joins reduce_injective hothers hrest)
  intro i commands hle hlt hmore
  refine fine_create hothers (fun hne => apart_reduce hne.symm) ?_ reduce_injective hle hmore
  rintro u rfl
  exact apart_vector

lemma fine_multiplyBatch (start n : ℕ) (hrest : Fine (workers colSize) rest fun _ => False) :
    Fine (workers colSize) (multiplyBatch start n ++ rest) fun _ => False := by
  rw [multiplyBatch, List.append_assoc, List.append_assoc]
  have hcollects : Fine (workers colSize) (loop (fun i => [.assign (collectData i)]) start n ++ rest)
      fun _ => False := by
    apply fine_loop (fun _ _ => False) _ hrest
    exact fun i commands _ _ hmore => ⟨fun u hu => hu.elim, hmore⟩
  have hothers : ∀ j, ¬ (fun _ => False : Thread → Prop) (.multiply j) := fun j => id
  refine Fine.congr ?_ (among_none Thread.multiply (fun _ => False) start)
  apply fine_loop (Among Thread.multiply (fun _ => False) start) _
    (fine_joins multiply_injective hothers hcollects)
  intro i commands hle hlt hmore
  refine ⟨?_, fine_create hothers (fun hne => apart_multiply colSize hne.symm) (fun u hu => hu.elim)
    multiply_injective hle hmore⟩
  rintro u (hu | ⟨j, rfl, -, hji⟩)
  · exact hu.elim
  · have hapart := apart_multiply colSize hji.ne'
    exact ⟨hapart.1, hapart.2.1, id⟩

lemma fine_batches (rowSize : ℕ) (hcores : 0 < cores) (batch : ℕ)
    (hbody : ∀ start n rest, Fine (workers colSize) rest live →
      Fine (workers colSize) (body start n ++ rest) live)
    (hrest : Fine (workers colSize) rest live) :
    Fine (workers colSize) (batches rowSize cores hcores body batch ++ rest) live := by
  induction batch using batches.induct rowSize cores hcores with
  | case1 batch hmore ih =>
    rw [batches, if_pos hmore, List.append_assoc]
    exact hbody _ _ _ ih
  | case2 batch hend =>
    rw [batches, if_neg hend]
    exact hrest

lemma fine_main (garbage : ℕ → Bytes) (rowSize colSize cores : ℕ) (hcores : 0 < cores) :
    Fine (workers colSize) (main garbage rowSize colSize cores hcores) fun _ => False := by
  have hfiles : Fine (workers colSize) [.assign (assignResultFile garbage),
      .assign (assignAnswerFile garbage rowSize colSize)] fun _ => False :=
    ⟨fun u hu => hu.elim, fun u hu => hu.elim, trivial⟩
  have hmultiply := fine_batches rowSize hcores 0 (fun start n rest => fine_multiplyBatch start n) hfiles
  have hinputs : Fine (workers colSize)
      ([.join .vector, .assign (assignInputMatrix garbage rowSize), .assign (assignInputVector garbage)] ++
        (batches rowSize cores hcores multiplyBatch 0 ++ [.assign (assignResultFile garbage),
          .assign (assignAnswerFile garbage rowSize colSize)])) (· = .vector) := by
    refine ⟨rfl, fun u hu => absurd hu.2 hu.1, fun u hu => absurd hu.2 hu.1, hmultiply.congr fun t => ?_⟩
    exact ⟨False.elim, fun hu => hu.1 hu.2⟩
  have hreduce := fine_batches rowSize hcores 0 (fun start n rest => fine_reduceBatch start n) hinputs
  exact ⟨id, fun u hu => hu.elim, hreduce.congr fun t => ⟨Or.inl, fun hu => hu.resolve_right id⟩⟩

end Alive

section Memory

variable {rowSize colSize cores start n i k c : ℕ} {hcores : 0 < cores} {body : ℕ → ℕ → Commands}
  {m : Region → Value} {memory : ℕ → Region → Value} {batch : ℕ} {garbage : ℕ → Bytes}

def reducedMemory (colSize k : ℕ) (m : Region → Value) : Region → Value
  | .row i => if i < k then (m (.row i)).modify (reduceFrom 0 colSize) else m (.row i)
  | .vector => (m .vector).modify (reduceFrom 0 colSize)
  | r => m r

def product (colSize : ℕ) (m : Region → Value) (i : ℕ) : UInt64 :=
  singleThreaded colSize (m (.row i)).toWords (m .vector).toWords

def multipliedMemory (colSize k c : ℕ) (m : Region → Value) : Region → Value
  | .data i => if i < k then .words [product colSize m i] else m (.data i)
  | .result => (m .result).modify fun ws => (List.range c).map (product colSize m) ++ ws.drop c
  | r => m r

lemma sequential_batches (hcores : 0 < cores) (batch : ℕ) (memory : ℕ → Region → Value)
    (hbody : ∀ start n, start + n ≤ rowSize →
      sequential (workers colSize) (finish colSize) (body start n) (memory start) = memory (start + n)) :
    sequential (workers colSize) (finish colSize) (batches rowSize cores hcores body batch)
      (memory (min (batch * cores) rowSize)) = memory rowSize := by
  induction batch using batches.induct rowSize cores hcores with
  | case1 batch hmore ih =>
    have hstop : (if batch * cores + cores < rowSize then batch * cores + cores else rowSize) =
        min ((batch + 1) * cores) rowSize := by
      rw [Nat.succ_mul]
      split_ifs <;> omega
    have hle : batch * cores ≤ min ((batch + 1) * cores) rowSize := by
      rw [Nat.succ_mul]
      omega
    rw [batches, if_pos hmore]
    simp only [hstop]
    rw [sequential_append, Nat.min_eq_left hmore.le, hbody _ _ (by omega), Nat.add_sub_cancel' hle]
    exact ih
  | case2 batch hend =>
    rw [batches, if_neg hend, Nat.min_eq_right (not_lt.mp hend)]
    rfl

lemma sequential_joins (t : ℕ → Thread) (start n : ℕ) (m : Region → Value) :
    sequential (workers colSize) (finish colSize) (loop (fun i => [.join (t i)]) start n) m = m :=
  sequential_loop (fun _ => m) fun _ _ _ => rfl

lemma reduce_round (m : Region → Value) (i : ℕ) :
    Function.update (reducedMemory colSize i m) (.row i)
        (finish colSize (.reduce i) (reducedMemory colSize i m)) = reducedMemory colSize (i + 1) m := by
  funext r
  rw [Function.update_apply]
  cases r with
  | row k =>
    rcases lt_trichotomy k i with hlt | rfl | hgt
    · rw [if_neg (fun h => hlt.ne (Region.row.inj h)), reducedMemory, reducedMemory, if_pos hlt,
        if_pos (hlt.trans (Nat.lt_succ_self i))]
    · rw [if_pos rfl, finish, reducedMemory, reducedMemory, if_neg (lt_irrefl k),
        if_pos (Nat.lt_succ_self k)]
    · rw [if_neg (fun h => hgt.ne' (Region.row.inj h)), reducedMemory, reducedMemory,
        if_neg hgt.le.not_gt, if_neg (by omega)]
  | _ => rfl

lemma sequential_reduceBatch (m : Region → Value) (start n : ℕ) :
    sequential (workers colSize) (finish colSize) (reduceBatch start n) (reducedMemory colSize start m) =
      reducedMemory colSize (start + n) m := by
  rw [reduceBatch, sequential_append, sequential_joins]
  exact sequential_loop (fun i => reducedMemory colSize i m) fun i _ _ => reduce_round m i

lemma multiply_round (m : Region → Value) (i c : ℕ) :
    sequential (workers colSize) (finish colSize) [.assign (clearData i), .create (.multiply i)]
      (multipliedMemory colSize i c m) = multipliedMemory colSize (i + 1) c m := by
  funext r
  change Function.update (Function.update (multipliedMemory colSize i c m) (.data i) (.words [0])) (.data i)
    (.words [product colSize m i]) r = _
  rw [Function.update_idem, Function.update_apply]
  cases r with
  | data k =>
    rcases lt_trichotomy k i with hlt | rfl | hgt
    · rw [if_neg (fun h => hlt.ne (Region.data.inj h)), multipliedMemory, multipliedMemory, if_pos hlt,
        if_pos (hlt.trans (Nat.lt_succ_self i))]
    · rw [if_pos rfl, multipliedMemory, if_pos (Nat.lt_succ_self k)]
    · rw [if_neg (fun h => hgt.ne' (Region.data.inj h)), multipliedMemory, multipliedMemory,
        if_neg hgt.le.not_gt, if_neg (by omega)]
  | _ => rfl

lemma collect_round {ws : List UInt64} (hresult : m .result = .words ws) (hi : i < ws.length) (hk : i < k) :
    sequential (workers colSize) (finish colSize) [.assign (collectData i)]
      (multipliedMemory colSize k i m) = multipliedMemory colSize k (i + 1) m := by
  have hset : ((List.range i).map (product colSize m) ++ ws.drop i).set i (product colSize m i) =
      (List.range (i + 1)).map (product colSize m) ++ ws.drop (i + 1) := by
    have hlen : ((List.range i).map (product colSize m)).length = i := by
      rw [List.length_map, List.length_range]
    rw [List.set_append_right _ _ hlen.le, hlen, Nat.sub_self, List.drop_eq_getElem_cons hi,
      List.set_cons_zero, List.range_succ, List.map_append, List.append_assoc]
    rfl
  funext r
  change Function.update (multipliedMemory colSize k i m) .result _ r = _
  rw [Function.update_apply]
  cases r with
  | result =>
    rw [if_pos rfl]
    simp only [collectData, multipliedMemory, hresult, Value.modify, if_pos hk, Value.toWords,
      List.getD_cons_zero, hset]
  | _ => rfl

lemma sequential_multiplyBatch {ws : List UInt64} (hresult : m .result = .words ws)
    (hlen : ws.length = rowSize) (hle : start + n ≤ rowSize) :
    sequential (workers colSize) (finish colSize) (multiplyBatch start n)
      (multipliedMemory colSize start start m) = multipliedMemory colSize (start + n) (start + n) m := by
  rw [multiplyBatch, sequential_append, sequential_append, sequential_joins]
  have hmultiply : sequential (workers colSize) (finish colSize)
      (loop (fun i => [.assign (clearData i), .create (.multiply i)]) start n)
      (multipliedMemory colSize start start m) = multipliedMemory colSize (start + n) start m :=
    sequential_loop (fun i => multipliedMemory colSize i start m)
      fun i _ _ => multiply_round m i start
  rw [hmultiply]
  exact sequential_loop (fun i => multipliedMemory colSize (start + n) i m)
    fun i _ hi => collect_round hresult (by omega) hi

structure Allocated (rowSize colSize : ℕ) (m : Region → Value) : Prop where
  row : ∀ i < rowSize, ∃ ws, m (.row i) = .words ws ∧ ws.length = colSize
  vector : ∃ ws, m .vector = .words ws ∧ ws.length = colSize
  result : ∃ ws, m .result = .words ws ∧ ws.length = rowSize

def reducedRows (rowSize : ℕ) (m : Region → Value) : List (List UInt64) :=
  (rowsOf rowSize m).map (List.map (· % 10))

def reducedVector (m : Region → Value) : List UInt64 := (m .vector).toWords.map (· % 10)

def products (rowSize colSize : ℕ) (m : Region → Value) : List UInt64 :=
  (reducedRows rowSize m).map fun row => singleThreaded colSize row (reducedVector m)

lemma toWords_reduced {v : Value} (h : ∃ ws, v = .words ws ∧ ws.length = colSize) :
    (v.modify (reduceFrom 0 colSize)).toWords = v.toWords.map (· % 10) := by
  obtain ⟨ws, rfl, hlen⟩ := h
  exact reduceFrom_all hlen

lemma rowsOf_reducedMemory (h : Allocated rowSize colSize m) :
    rowsOf rowSize (reducedMemory colSize rowSize m) = reducedRows rowSize m := by
  rw [rowsOf, reducedRows, rowsOf, List.map_map]
  refine List.map_congr_left fun i hi => ?_
  have hlt := List.mem_range.mp hi
  rw [reducedMemory, if_pos hlt, toWords_reduced (h.row i hlt)]
  rfl

lemma sequential_reduce (m : Region → Value) :
    sequential (workers colSize) (finish colSize) (batches rowSize cores hcores reduceBatch 0)
      (Function.update m .vector (finish colSize .vector m)) = reducedMemory colSize rowSize m := by
  have hstart : Function.update m .vector (finish colSize .vector m) = reducedMemory colSize 0 m := by
    funext r
    cases r <;> rfl
  have hloop := sequential_batches hcores 0 (fun k => reducedMemory colSize k m)
    fun start n (_ : start + n ≤ rowSize) => sequential_reduceBatch m start n
  rw [Nat.zero_mul, Nat.zero_min] at hloop
  rw [hstart, hloop]

lemma sequential_multiply {ws : List UInt64} (hresult : m .result = .words ws) (hlen : ws.length = rowSize) :
    sequential (workers colSize) (finish colSize) (batches rowSize cores hcores multiplyBatch 0) m =
      multipliedMemory colSize rowSize rowSize m := by
  have hstart : m = multipliedMemory colSize 0 0 m := by
    funext r
    cases r with
    | result => rw [multipliedMemory, hresult]; rfl
    | _ => rfl
  have hloop := sequential_batches hcores 0 (fun k => multipliedMemory colSize k k m)
    fun start n hle => sequential_multiplyBatch hresult hlen hle
  rw [Nat.zero_mul, Nat.zero_min, ← hstart] at hloop
  exact hloop

def inputsWritten (rowSize colSize : ℕ) (m : Region → Value) : Region → Value :=
  Function.update (Function.update (reducedMemory colSize rowSize m) .inputMatrix
    (.text (matrixText (reducedRows rowSize m)))) .inputVector (.text (matrixText [reducedVector m]))

def productText (rowSize colSize : ℕ) (m : Region → Value) : Bytes :=
  matrixText ((products rowSize colSize m).map ([·]))

/-- The memory at the end of `main`. -/
def finalMemory (rowSize colSize : ℕ) (m : Region → Value) : Region → Value :=
  Function.update (Function.update
    (multipliedMemory colSize rowSize rowSize (inputsWritten rowSize colSize m)) .resultFile
      (.text (productText rowSize colSize m))) .answerFile (.text (productText rowSize colSize m))

lemma sequential_inputs (h : Allocated rowSize colSize m) (hgarbage : ∀ n, (garbage n).length = n) :
    sequential (workers colSize) (finish colSize) [.join .vector, .assign (assignInputMatrix garbage rowSize),
      .assign (assignInputVector garbage)] (reducedMemory colSize rowSize m) =
        inputsWritten rowSize colSize m := by
  have hmatrix : (assignInputMatrix garbage rowSize).value (reducedMemory colSize rowSize m) =
      .text (matrixText (reducedRows rowSize m)) := by
    simp only [assignInputMatrix, rowsOf_reducedMemory h, fputsMatrix_eq garbage hgarbage, Option.getD_some]
  have hvector (v : Value) : (assignInputVector garbage).value
      (Function.update (reducedMemory colSize rowSize m) .inputMatrix v) =
        .text (matrixText [reducedVector m]) := by
    have hwords : (Function.update (reducedMemory colSize rowSize m) .inputMatrix v .vector).toWords =
        reducedVector m := toWords_reduced h.vector
    simp only [assignInputVector, hwords, fputsVector, fputsMatrix_eq garbage hgarbage, Option.getD_some]
  rw [inputsWritten, ← hmatrix, ← hvector ((assignInputMatrix garbage rowSize).value _)]
  rfl

lemma product_inputsWritten (h : Allocated rowSize colSize m) :
    (List.range rowSize).map (product colSize (inputsWritten rowSize colSize m)) =
      products rowSize colSize m := by
  rw [products, reducedRows, rowsOf, List.map_map, List.map_map]
  refine List.map_congr_left fun i hi => ?_
  have hlt := List.mem_range.mp hi
  have hrow : (inputsWritten rowSize colSize m (.row i)).toWords =
      (m (.row i)).toWords.map (· % 10) := by
    change (reducedMemory colSize rowSize m (.row i)).toWords = _
    rw [reducedMemory, if_pos hlt, toWords_reduced (h.row i hlt)]
  have hvector : (inputsWritten rowSize colSize m .vector).toWords = reducedVector m :=
    toWords_reduced h.vector
  rw [product, hrow, hvector]
  rfl

lemma sequential_main (h : Allocated rowSize colSize m) (hgarbage : ∀ n, (garbage n).length = n) :
    sequential (workers colSize) (finish colSize) (main garbage rowSize colSize cores hcores) m =
      finalMemory rowSize colSize m := by
  obtain ⟨ws, hresult, hlen⟩ := h.result
  have hwritten : inputsWritten rowSize colSize m .result = .words ws := hresult
  have hproducts : (multipliedMemory colSize rowSize rowSize (inputsWritten rowSize colSize m)
      .result).toWords = products rowSize colSize m := by
    rw [multipliedMemory, hwritten, Value.modify, Value.toWords, product_inputsWritten h,
      List.drop_eq_nil_of_le hlen.le, List.append_nil]
  have hresultFile : (assignResultFile garbage).value
      (multipliedMemory colSize rowSize rowSize (inputsWritten rowSize colSize m)) =
        .text (productText rowSize colSize m) := by
    simp only [assignResultFile, hproducts, fputsVector, fputsMatrix_eq garbage hgarbage, Option.getD_some,
      productText]
  have hanswerFile (v : Value) : (assignAnswerFile garbage rowSize colSize).value (Function.update
      (multipliedMemory colSize rowSize rowSize (inputsWritten rowSize colSize m)) .resultFile v) =
        .text (productText rowSize colSize m) := by
    have hrows : rowsOf rowSize (Function.update (multipliedMemory colSize rowSize rowSize
        (inputsWritten rowSize colSize m)) .resultFile v) = reducedRows rowSize m :=
      rowsOf_reducedMemory h
    have hvector : (Function.update (multipliedMemory colSize rowSize rowSize
        (inputsWritten rowSize colSize m)) .resultFile v .vector).toWords = reducedVector m :=
      toWords_reduced h.vector
    simp only [assignAnswerFile, hrows, hvector, fputsVector, fputsMatrix_eq garbage hgarbage,
      Option.getD_some, productText, products]
  rw [main]
  change sequential _ _ (_ ++ _) (Function.update m .vector (finish colSize .vector m)) = _
  rw [sequential_append, sequential_reduce, sequential_append, sequential_inputs h hgarbage,
    sequential_append, sequential_multiply hwritten hlen]
  generalize hm : multipliedMemory colSize rowSize rowSize (inputsWritten rowSize colSize m) = m₃
    at hresultFile hanswerFile ⊢
  change Function.update (Function.update m₃ .resultFile ((assignResultFile garbage).value m₃)) .answerFile
    ((assignAnswerFile garbage rowSize colSize).value
      (Function.update m₃ .resultFile ((assignResultFile garbage).value m₃))) = _
  rw [hanswerFile, hresultFile, finalMemory, hm]

end Memory

section Sums

variable {rowSize colSize : ℕ} {m : Region → Value}

lemma getD_reduced (ws : List UInt64) (j : ℕ) :
    ((ws.map (· % 10)).getD j 0).toNat = (ws.getD j 0).toNat % 10 := by
  have hmap := List.getD_map (f := fun v : UInt64 => v % 10) (l := ws) (n := j) (d := 0)
  rw [show (0 : UInt64) % 10 = 0 from rfl] at hmap
  rw [hmap, UInt64.toNat_mod]
  rfl

lemma toNat_singleThreaded (row vector : List UInt64) (h : 81 * colSize < 2 ^ 64) :
    (singleThreaded colSize (row.map (· % 10)) (vector.map (· % 10))).toNat =
      ∑ j ∈ Finset.range colSize, (row.getD j 0).toNat % 10 * ((vector.getD j 0).toNat % 10) ∧
    ∑ j ∈ Finset.range colSize, (row.getD j 0).toNat % 10 * ((vector.getD j 0).toNat % 10) ≤ 81 * colSize := by
  induction colSize with
  | zero => exact ⟨rfl, le_rfl⟩
  | succ n ih =>
    obtain ⟨heq, hle⟩ := ih (by omega)
    have hproduct : (row.getD n 0).toNat % 10 * ((vector.getD n 0).toNat % 10) ≤ 9 * 9 :=
      Nat.mul_le_mul (by omega) (by omega)
    rw [singleThreaded, List.range_succ, List.foldl_append, Finset.sum_range_succ]
    rw [singleThreaded] at heq
    refine ⟨?_, by omega⟩
    rw [List.foldl_cons, List.foldl_nil, UInt64.toNat_add, UInt64.toNat_mul, heq, getD_reduced, getD_reduced]
    rw [Nat.mod_eq_of_lt (by omega : (row.getD n 0).toNat % 10 * ((vector.getD n 0).toNat % 10) < 2 ^ 64)]
    exact Nat.mod_eq_of_lt (by omega)

end Sums

theorem product_of_all_schedules (garbage : ℕ → Bytes) (rowSize colSize cores : ℕ) (hcores : 0 < cores)
    (hgarbage : ∀ n, (garbage n).length = n) (memory : Region → Value)
    (h : Allocated rowSize colSize memory) :
    ∃ n final, Terminal (act (workers colSize)) final ∧ final.commands = [] ∧
      final.memory .inputMatrix = .text (matrixText (reducedRows rowSize memory)) ∧
      final.memory .inputVector = .text (matrixText [reducedVector memory]) ∧
      final.memory .resultFile = .text (matrixText ((products rowSize colSize memory).map ([·]))) ∧
      final.memory .answerFile = final.memory .resultFile ∧
      (81 * colSize < 2 ^ 64 → ∀ i < rowSize, ((products rowSize colSize memory).getD i 0).toNat =
        ∑ j ∈ Finset.range colSize, ((memory (.row i)).toWords.getD j 0).toNat % 10 *
          (((memory .vector).toWords.getD j 0).toNat % 10)) ∧
      ∀ k u, Run (act (workers colSize)) k
          ⟨main garbage rowSize colSize cores hcores, fun _ => none, memory⟩ u →
        k ≤ n ∧ Run (act (workers colSize)) (n - k) u final := by
  obtain ⟨n, final, hend, hcommands, hmemory, hruns⟩ := ends_sequential alone_finishes
    (fine_main garbage rowSize colSize cores hcores) memory
  rw [sequential_main h hgarbage] at hmemory
  refine ⟨n, final, hend, hcommands, ?_, ?_, ?_, ?_, fun hsmall i hi => ?_, hruns⟩
  · rw [hmemory]
    rfl
  · rw [hmemory]
    rfl
  · rw [hmemory]
    rfl
  · rw [hmemory]
    rfl
  · have hget : (products rowSize colSize memory).getD i 0 = singleThreaded colSize
        ((memory (.row i)).toWords.map (· % 10)) (reducedVector memory) := by
      have hlen : i < (products rowSize colSize memory).length := by
        rwa [products, reducedRows, rowsOf, List.length_map, List.length_map, List.length_map,
          List.length_range]
      rw [List.getD_eq_getElem _ _ hlen]
      simp only [products, reducedRows, rowsOf, List.getElem_map, List.getElem_range]
    rw [hget, reducedVector]
    exact (toNat_singleThreaded _ _ hsmall).1

def smallMemory : Region → Value
  | .row 0 => .words [12, 3]
  | .row 1 => .words [4, 25]
  | .vector => .words [7, 18]
  | _ => .words [0, 0]

theorem product_of_all_schedules_small :
    ∃ n final, (∀ k u, Run (act (workers 2)) k
        ⟨main (fun n => List.replicate n 0) 2 2 1 Nat.one_pos, fun _ => none, smallMemory⟩ u →
          k ≤ n ∧ Run (act (workers 2)) (n - k) u final) ∧
      final.memory .resultFile = .text (matrixText [[38], [68]]) := by
  have hallocated : Allocated 2 2 smallMemory :=
    ⟨fun i hi => by
      match i, hi with
      | 0, _ => exact ⟨_, rfl, rfl⟩
      | 1, _ => exact ⟨_, rfl, rfl⟩, ⟨_, rfl, rfl⟩, ⟨_, rfl, rfl⟩⟩
  obtain ⟨n, final, -, -, -, -, hresult, -, -, hruns⟩ := product_of_all_schedules
    (fun n => List.replicate n 0) 2 2 1 Nat.one_pos (fun n => List.length_replicate) smallMemory hallocated
  exact ⟨n, final, hruns, hresult⟩

end SystemsLab.Matrices
