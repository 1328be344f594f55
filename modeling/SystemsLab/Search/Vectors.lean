import SystemsLab.Search.Text
import SystemsLab.Tables.Doubling
import Mathlib.Tactic.Ring

namespace SystemsLab.Search

open Tables

def sizeMax : ℕ := 2 ^ 64 - 1
def ptrdiffMax : ℕ := 2 ^ 63 - 1

/-- A kind of vector: the size of an item and the capacity of the first block. -/
structure VecKind where
  item : ℕ
  first : ℕ
  item_pos : 0 < item
  first_pos : 0 < first
  first_fits : first * item ≤ ptrdiffMax

def byteVec : VecKind := ⟨1, 64, by decide, by decide, by decide⟩
def u32Vec : VecKind := ⟨4, 64, by decide, by decide, by decide⟩
def matchVec : VecKind := ⟨8, 64, by decide, by decide, by decide⟩

def lexEntries : VecKind := ⟨40, 256, by decide, by decide, by decide⟩

/-- The loop of `grow_capacity`. -/
def growFrom (next needed : ℕ) (hpos : 0 < next) : Option ℕ :=
  if _h : next < needed then
    if next > sizeMax / 2 then none else growFrom (next * 2) needed (by omega)
  else some next
termination_by needed - next
decreasing_by omega

def growCapacity (kind : VecKind) (cap needed : ℕ) : Option ℕ :=
  growFrom (if cap = 0 then kind.first else cap) needed (by
    split_ifs with hzero
    · exact kind.first_pos
    · exact Nat.pos_of_ne_zero hzero)

/-- `block` is how many bytes the block at `data` has. `moved` and `peak` are ghosts: how many items
`realloc` has moved, and for how many items room has been asked for at most. -/
structure Vec (α : Type) where
  data : ℕ → α
  block : ℕ
  len : ℕ
  cap : ℕ
  moved : ℕ
  peak : ℕ

namespace Vec

variable {α : Type} (kind : VecKind) (provides : ℕ → Bool)

def empty (garbage : ℕ → α) : Vec α := ⟨garbage, 0, 0, 0, 0, 0⟩

/-- `provides` answers a call of `realloc`. -/
def reserve (vec : Vec α) (needed : ℕ) : Vec α × Bool :=
  let vec := { vec with peak := max vec.peak needed }
  if needed ≤ vec.cap then (vec, true)
  else
    match growCapacity kind vec.cap needed with
    | none => (vec, false)
    | some nextCap =>
      let bytes := nextCap * kind.item % 2 ^ 64
      if provides bytes then
        ({ vec with block := bytes, cap := nextCap, moved := vec.moved + vec.cap }, true)
      else (vec, false)

/-- `none` is a store outside the block. -/
def store (vec : Vec α) (i : ℕ) (a : α) : Option (Vec α) :=
  if (i + 1) * kind.item ≤ vec.block then some { vec with data := Function.update vec.data i a }
  else none

/-- `copy_bytes` into the block. -/
def copyItems (vec : Vec α) (i : ℕ) : List α → Option (Vec α)
  | [] => some vec
  | a :: items => (vec.store kind i a).bind fun vec => copyItems vec (i + 1) items

def push (vec : Vec α) (a : α) : Option (Vec α × Bool) :=
  let (vec, ok) := vec.reserve kind provides ((vec.len + 1) % 2 ^ 64)
  if ok then (vec.store kind vec.len a).map fun stored => ({ stored with len := vec.len + 1 }, true)
  else some (vec, false)

def append (vec : Vec α) (items : List α) : Option (Vec α × Bool) :=
  if items = [] then some (vec, true)
  else
    let (vec, ok) := vec.reserve kind provides ((vec.len + items.length) % 2 ^ 64)
    if ok then
      (vec.copyItems kind vec.len items).map fun stored =>
        ({ stored with len := vec.len + items.length }, true)
    else some (vec, false)

/-- What `index_read_line` does with its line: it reads items into the block and keeps some. -/
def load (vec : Vec α) (items : List α) (kept : ℕ) : Option (Vec α × Bool) :=
  let vec := { vec with len := 0 }
  if items = [] then some (vec, true)
  else
    let (vec, ok) := vec.reserve kind provides items.length
    if ok then (vec.copyItems kind 0 items).map fun stored => ({ stored with len := kept }, true)
    else some (vec, false)

def reset (vec : Vec α) : Vec α := { vec with len := 0 }

end Vec

section Members

variable {α : Type} (provides : ℕ → Bool)

def bytevecReserve (vec : Vec UInt8) (needed : ℕ) : Vec UInt8 × Bool :=
  vec.reserve byteVec provides needed

def bytevecAppend (vec : Vec UInt8) (data : List UInt8) : Option (Vec UInt8 × Bool) :=
  vec.append byteVec provides data

def matchvecPush (vec : Vec (UInt32 × UInt32)) (lineNo startIdx : UInt32) :
    Option (Vec (UInt32 × UInt32) × Bool) :=
  vec.push matchVec provides (lineNo, startIdx)

def u32vecPush (vec : Vec UInt32) (value : UInt32) : Option (Vec UInt32 × Bool) :=
  vec.push u32Vec provides value

/-- With the new entry that `lexicon_find_or_add` stores behind the others. -/
def lexiconPushEntry (vec : Vec α) (entry : α) : Option (Vec α × Bool) :=
  vec.push lexEntries provides entry

end Members

inductive VecCall (α : Type)
  | push (a : α)
  | append (items : List α)
  | load (items : List α) (kept : ℕ) (hkept : kept ≤ items.length)
  | reset

namespace VecCall

variable {α : Type}

def call (kind : VecKind) (provides : ℕ → Bool) (vec : Vec α) : VecCall α → Option (Vec α × Bool)
  | .push a => vec.push kind provides a
  | .append items => vec.append kind provides items
  | .load items kept _ => vec.load kind provides items kept
  | .reset => some (vec.reset, true)

def run (kind : VecKind) : Vec α → List (VecCall α × (ℕ → Bool)) → Option (Vec α × List Bool)
  | vec, [] => some (vec, [])
  | vec, (c, provides) :: calls => do
    let (vec, ok) ← c.call kind provides vec
    let (vec, oks) ← run kind vec calls
    some (vec, ok :: oks)

def Fits (kind : VecKind) : VecCall α → Prop
  | .append items => kind.item = 1 ∧ items.length ≤ ptrdiffMax
  | .load _ _ _ => kind.item = 1
  | _ => True

def apply (l : List α) (ok : Bool) : VecCall α → List α
  | .push a => if ok then l ++ [a] else l
  | .append items => if ok then l ++ items else l
  | .load items kept _ => if ok then items.take kept else []
  | .reset => []

def replay : List α → List (VecCall α) → List Bool → List α
  | l, c :: calls, ok :: oks => replay (c.apply l ok) calls oks
  | l, _, _ => l

end VecCall

section Growth

variable {kind : VecKind} {next needed cap : ℕ}

lemma growFrom_eq_some {hpos : 0 < next} (h : growFrom next needed hpos = some cap) :
    Doubled next needed cap ∧ (cap = next ∨ cap ≤ sizeMax) := by
  fun_induction growFrom next needed hpos with
  | case1 => cases h
  | case2 next hpos hlt hsmall ih =>
    obtain ⟨hdoubled, hle⟩ := ih h
    refine ⟨hdoubled.twice hlt, .inr ?_⟩
    simp only [sizeMax] at hsmall hle ⊢
    omega
  | case3 next hpos hge =>
    obtain rfl := Option.some.inj h
    exact ⟨.refl (Nat.le_of_not_lt hge), .inl rfl⟩

lemma growFrom_eq_none {hpos : 0 < next} (h : growFrom next needed hpos = none) : 2 ^ 63 < needed := by
  fun_induction growFrom next needed hpos with
  | case1 next hpos hlt hbig =>
    simp only [sizeMax] at hbig
    omega
  | case2 next hpos hlt hsmall ih => exact ih h
  | case3 => cases h

end Growth

namespace Vec

variable {α : Type} {kind : VecKind} {provides : ℕ → Bool} {vec vec' : Vec α} {needed i cap : ℕ}
  {items : List α} {a : α}

structure Sound (kind : VecKind) (vec : Vec α) : Prop where
  block_eq : vec.block = vec.cap * kind.item
  block_le : vec.block ≤ ptrdiffMax
  len_le : vec.len ≤ vec.cap
  grown : Grown kind.first vec.cap vec.moved vec.peak

lemma empty_sound (kind : VecKind) (garbage : ℕ → α) : (empty garbage).Sound kind :=
  ⟨(Nat.zero_mul _).symm, Nat.zero_le _, le_rfl, .empty _⟩

def Unwrapped (kind : VecKind) (cap needed : ℕ) : Prop :=
  ∀ nextCap, growCapacity kind cap needed = some nextCap → nextCap * kind.item < 2 ^ 64

def Memory (kind : VecKind) (provides : ℕ → Bool) (needed : ℕ) : Prop :=
  (∀ n ≤ ptrdiffMax, provides n = true) ∧ max kind.first (2 * needed) * kind.item ≤ ptrdiffMax

lemma unwrapped_next (h : vec.Sound kind) : Unwrapped kind vec.cap (vec.len + 1) := by
  intro nextCap hgrow
  obtain ⟨hdoubled, -⟩ := growFrom_eq_some hgrow
  have hbytes : vec.cap * kind.item ≤ ptrdiffMax := h.block_eq ▸ h.block_le
  have hfirst := kind.first_fits
  have hlen := h.len_le
  have htwice : nextCap ≤ max kind.first (2 * vec.cap) := by
    have htight := hdoubled.tight
    obtain ⟨k, hk⟩ := hdoubled.power
    split_ifs at hk htight with hzero
    · have hpos := kind.first_pos
      omega
    · have hle : nextCap ≤ 2 * vec.cap := by
        rcases k with _ | _ | k
        · omega
        · omega
        · have hpow : 2 ^ 2 ≤ 2 ^ (k + 1 + 1) := Nat.pow_le_pow_right Nat.two_pos (by omega)
          have hfour : vec.cap * 2 ^ 2 ≤ vec.cap * 2 ^ (k + 1 + 1) := Nat.mul_le_mul_left _ hpow
          omega
      exact hle.trans (le_max_right _ _)
  have hmul : nextCap * kind.item ≤ max kind.first (2 * vec.cap) * kind.item :=
    Nat.mul_le_mul_right _ htwice
  simp only [ptrdiffMax] at hbytes hfirst
  rcases le_total kind.first (2 * vec.cap) with hle | hle
  · rw [max_eq_right hle, Nat.mul_assoc] at hmul
    omega
  · rw [max_eq_left hle] at hmul
    omega

lemma unwrapped_bytes (hitem : kind.item = 1) (h : vec.Sound kind) (needed : ℕ) :
    Unwrapped kind vec.cap needed := by
  intro nextCap hgrow
  obtain ⟨-, hle⟩ := growFrom_eq_some hgrow
  have hbytes : vec.cap * kind.item ≤ ptrdiffMax := h.block_eq ▸ h.block_le
  have hfirst := kind.first_fits
  rw [hitem, Nat.mul_one] at hbytes hfirst ⊢
  simp only [ptrdiffMax, sizeMax] at hbytes hfirst hle
  split_ifs at hle <;> omega

inductive Reserved (kind : VecKind) (provides : ℕ → Bool) (vec : Vec α) (needed : ℕ) :
    Vec α × Bool → Prop
  | room (h : needed ≤ vec.cap) :
    Reserved kind provides vec needed ({ vec with peak := max vec.peak needed }, true)
  | tooLarge (h : 2 ^ 63 < needed) :
    Reserved kind provides vec needed ({ vec with peak := max vec.peak needed }, false)
  | refused {nextCap : ℕ} (hfull : vec.cap < needed)
    (hnext : Doubled (if vec.cap = 0 then kind.first else vec.cap) needed nextCap)
    (h : provides (nextCap * kind.item) = false) :
    Reserved kind provides vec needed ({ vec with peak := max vec.peak needed }, false)
  | grown {nextCap : ℕ} (hfull : vec.cap < needed)
    (hnext : Doubled (if vec.cap = 0 then kind.first else vec.cap) needed nextCap)
    (h : provides (nextCap * kind.item) = true) :
    Reserved kind provides vec needed ({ vec with
      block := nextCap * kind.item
      cap := nextCap
      moved := vec.moved + vec.cap
      peak := max vec.peak needed }, true)

lemma reserve_cases (hfits : Unwrapped kind vec.cap needed) :
    Reserved kind provides vec needed (vec.reserve kind provides needed) := by
  rw [reserve]
  by_cases hroom : needed ≤ vec.cap
  · simp only [hroom, if_true]
    exact .room hroom
  · simp only [hroom, if_false]
    cases hgrow : growCapacity kind vec.cap needed with
    | none => exact .tooLarge (growFrom_eq_none hgrow)
    | some nextCap =>
      obtain ⟨hdoubled, -⟩ := growFrom_eq_some hgrow
      simp only [Nat.mod_eq_of_lt (hfits nextCap hgrow)]
      split_ifs with hprovides
      · exact .grown (Nat.lt_of_not_le hroom) hdoubled hprovides
      · exact .refused (Nat.lt_of_not_le hroom) hdoubled (Bool.eq_false_of_not_eq_true hprovides)

structure Ready (kind : VecKind) (provides : ℕ → Bool) (vec : Vec α) (needed : ℕ) (vec' : Vec α)
    (ok : Bool) : Prop where
  sound : vec'.Sound kind
  data_eq : vec'.data = vec.data
  len_eq : vec'.len = vec.len
  peak_eq : vec'.peak = max vec.peak needed
  room : ok = true → needed ≤ vec'.cap
  served : Memory kind provides needed → ok = true

lemma Reserved.ready {r : Vec α × Bool} (hreserved : Reserved kind provides vec needed r)
    (h : vec.Sound kind) (hprovides : ∀ n, provides n = true → n ≤ ptrdiffMax) :
    Ready kind provides vec needed r.1 r.2 := by
  have hasked : ∀ needed, Sound kind { vec with peak := max vec.peak needed } := fun needed =>
    ⟨h.block_eq, h.block_le, h.len_le, h.grown.ask needed⟩
  cases hreserved with
  | room hroom => exact ⟨hasked needed, rfl, rfl, rfl, fun _ => hroom, fun _ => rfl⟩
  | tooLarge hbig =>
    refine ⟨hasked needed, rfl, rfl, rfl, fun hok => absurd hok Bool.false_ne_true, fun hmemory => ?_⟩
    have hbytes := hmemory.2
    have hitem := kind.item_pos
    have hle : 2 * needed * 1 ≤ max kind.first (2 * needed) * kind.item :=
      Nat.mul_le_mul (le_max_right _ _) hitem
    simp only [ptrdiffMax] at hbytes
    omega
  | @refused nextCap hfull hnext hrefused =>
    refine ⟨hasked needed, rfl, rfl, rfl, fun hok => absurd hok Bool.false_ne_true, fun hmemory => ?_⟩
    have hle : nextCap ≤ max kind.first (2 * needed) := by
      have hcap := hnext.le_cap
      rcases hnext.tight with heq | hlt
      · split_ifs at heq with hzero
        · exact heq ▸ le_max_left _ _
        · omega
      · exact hlt.le.trans (le_max_right _ _)
    have hbytes := (Nat.mul_le_mul_right kind.item hle).trans hmemory.2
    rw [hmemory.1 _ hbytes] at hrefused
    exact hrefused.symm
  | @grown nextCap hfull hnext hgranted =>
    refine ⟨⟨rfl, hprovides _ hgranted, ?_, h.grown.grow hfull hnext⟩, rfl, rfl, rfl,
      fun _ => hnext.le_cap, fun _ => rfl⟩
    exact (h.len_le.trans hfull.le).trans hnext.le_cap

lemma reserve_ready (h : vec.Sound kind) (hprovides : ∀ n, provides n = true → n ≤ ptrdiffMax)
    (hfits : Unwrapped kind vec.cap needed) :
    Ready kind provides vec needed (vec.reserve kind provides needed).1
      (vec.reserve kind provides needed).2 :=
  (reserve_cases hfits).ready h hprovides

lemma copyItems_eq (h : vec.block = vec.cap * kind.item) (hroom : i + items.length ≤ vec.cap) :
    ∃ data, vec.copyItems kind i items = some { vec with data := data } ∧
      contents data (i + items.length) = contents vec.data i ++ items := by
  induction items generalizing vec i with
  | nil => exact ⟨vec.data, rfl, (List.append_nil _).symm⟩
  | cons a items ih =>
    rw [List.length_cons] at hroom ⊢
    have hin : (i + 1) * kind.item ≤ vec.block := by
      rw [h]
      apply Nat.mul_le_mul_right
      omega
    have hstore : vec.store kind i a = some { vec with data := Function.update vec.data i a } :=
      if_pos hin
    obtain ⟨data, hcopy, hcontents⟩ :=
      @ih { vec with data := Function.update vec.data i a } (i + 1) h (by
        simp only
        omega)
    refine ⟨data, ?_, ?_⟩
    · rw [copyItems, hstore, Option.bind_some, hcopy]
    · have hlength : i + (items.length + 1) = i + 1 + items.length := by omega
      rw [hlength, hcontents, contents_store, List.append_assoc, List.singleton_append]

lemma copyItems_singleton : vec.copyItems kind i [a] = vec.store kind i a := by
  rw [copyItems]
  cases vec.store kind i a <;> rfl

lemma Memory.mono (h : Memory kind provides i) (hle : needed ≤ i) : Memory kind provides needed := by
  refine ⟨h.1, le_trans ?_ h.2⟩
  apply Nat.mul_le_mul_right
  exact max_le_max le_rfl (Nat.mul_le_mul_left 2 hle)

structure Called (kind : VecKind) (provides : ℕ → Bool) (peak : ℕ) (l : List α) (vec' : Vec α)
    (ok : Bool) : Prop where
  sound : vec'.Sound kind
  contents_eq : contents vec'.data vec'.len = l
  peak_le : peak ≤ vec'.peak
  served : Memory kind provides vec'.peak → ok = true

lemma Ready.same {ok : Bool} (h : Ready kind provides vec needed vec' ok) :
    Called kind provides vec.peak (contents vec.data vec.len) vec' ok := by
  refine ⟨h.sound, ?_, ?_, fun hmemory => h.served (hmemory.mono ?_)⟩
  · rw [h.data_eq, h.len_eq]
  · exact h.peak_eq ▸ le_max_left _ _
  · exact h.peak_eq ▸ le_max_right _ _

lemma Ready.copied {ok : Bool} {len : ℕ} (h : Ready kind provides vec needed vec' ok) (hok : ok = true)
    (hneeded : needed = i + items.length) (hlen : len ≤ needed) :
    ∃ data, vec'.copyItems kind i items = some { vec' with data := data } ∧
      Called kind provides vec.peak ((contents vec.data i ++ items).take len)
        { vec' with data := data, len := len } ok := by
  have hroom := h.room hok
  rw [hneeded] at hroom hlen
  obtain ⟨data, hcopy, hcontents⟩ := copyItems_eq h.sound.block_eq hroom
  refine ⟨data, hcopy, ⟨h.sound.block_eq, h.sound.block_le, hlen.trans hroom, h.sound.grown⟩, ?_, ?_, ?_⟩
  · rw [← h.data_eq, ← hcontents, take_contents hlen]
  · exact h.peak_eq ▸ le_max_left _ _
  · exact fun _ => hok

lemma push_spec (h : vec.Sound kind) (hprovides : ∀ n, provides n = true → n ≤ ptrdiffMax) (a : α) :
    ∃ vec' ok, vec.push kind provides a = some (vec', ok) ∧ Called kind provides vec.peak
      ((VecCall.push a).apply (contents vec.data vec.len) ok) vec' ok := by
  have hcap := h.block_le
  have hitem := kind.item_pos
  have hbytes : vec.cap * 1 ≤ vec.cap * kind.item := Nat.mul_le_mul_left _ hitem
  have hlen := h.len_le
  rw [h.block_eq] at hcap
  have hmod : (vec.len + 1) % 2 ^ 64 = vec.len + 1 := by
    simp only [ptrdiffMax] at hcap
    omega
  have hready := reserve_ready h hprovides (unwrapped_next h)
  rw [push, hmod]
  generalize vec.reserve kind provides (vec.len + 1) = r at hready
  obtain ⟨vec', ok⟩ := r
  cases ok with
  | false => exact ⟨vec', false, rfl, hready.same⟩
  | true =>
    obtain ⟨data, hcopy, hcalled⟩ := @Ready.copied _ _ _ _ _ _ vec.len [a] _ (vec.len + 1) hready rfl
      rfl le_rfl
    have hlen' : vec'.len = vec.len := hready.len_eq
    refine ⟨{ vec' with data := data, len := vec.len + 1 }, true, ?_, ?_⟩
    · rw [copyItems_singleton] at hcopy
      simp only [if_true, hlen', hcopy, Option.map_some]
    · rwa [List.take_of_length_le (by simp)] at hcalled

lemma append_spec (h : vec.Sound kind) (hprovides : ∀ n, provides n = true → n ≤ ptrdiffMax)
    (hitem : kind.item = 1) (hitems : items.length ≤ ptrdiffMax) :
    ∃ vec' ok, vec.append kind provides items = some (vec', ok) ∧ Called kind provides vec.peak
      ((VecCall.append items).apply (contents vec.data vec.len) ok) vec' ok := by
  have hcap := h.block_le
  have hlen := h.len_le
  rw [h.block_eq, hitem, Nat.mul_one] at hcap
  have hmod : (vec.len + items.length) % 2 ^ 64 = vec.len + items.length := by
    simp only [ptrdiffMax] at hcap hitems
    omega
  rw [append, hmod]
  split_ifs with hnil
  · subst hnil
    refine ⟨vec, true, rfl, h, ?_, le_rfl, fun _ => rfl⟩
    exact (List.append_nil _).symm
  have hready := reserve_ready h hprovides (unwrapped_bytes hitem h (vec.len + items.length))
  generalize vec.reserve kind provides (vec.len + items.length) = r at hready
  obtain ⟨vec', ok⟩ := r
  cases ok with
  | false => exact ⟨vec', false, rfl, hready.same⟩
  | true =>
    obtain ⟨data, hcopy, hcalled⟩ := hready.copied rfl rfl le_rfl
    have hlen' : vec'.len = vec.len := hready.len_eq
    refine ⟨{ vec' with data := data, len := vec.len + items.length }, true, ?_, ?_⟩
    · simp only at hcopy
      simp only [if_true, hlen', hcopy, Option.map_some]
    · rwa [List.take_of_length_le (by simp)] at hcalled

lemma load_spec (h : vec.Sound kind) (hprovides : ∀ n, provides n = true → n ≤ ptrdiffMax)
    (hitem : kind.item = 1) {kept : ℕ} (hkept : kept ≤ items.length) :
    ∃ vec' ok, vec.load kind provides items kept = some (vec', ok) ∧ Called kind provides vec.peak
      ((VecCall.load items kept hkept).apply (contents vec.data vec.len) ok) vec' ok := by
  have hreset : Sound kind { vec with len := 0 } := ⟨h.block_eq, h.block_le, Nat.zero_le _, h.grown⟩
  rw [load]
  split_ifs with hnil
  · subst hnil
    refine ⟨{ vec with len := 0 }, true, rfl, hreset, ?_, le_rfl, fun _ => rfl⟩
    exact List.take_nil.symm
  have hready := reserve_ready hreset hprovides (unwrapped_bytes hitem hreset items.length)
  generalize reserve kind provides { vec with len := 0 } items.length = r at hready
  obtain ⟨vec', ok⟩ := r
  cases ok with
  | false => exact ⟨vec', false, rfl, hready.same⟩
  | true =>
    obtain ⟨data, hcopy, hcalled⟩ := hready.copied rfl (Nat.zero_add _).symm hkept
    refine ⟨{ vec' with data := data, len := kept }, true, ?_, hcalled⟩
    simp only at hcopy
    simp only [if_true, hcopy, Option.map_some]

lemma reset_sound (h : vec.Sound kind) : vec.reset.Sound kind :=
  ⟨h.block_eq, h.block_le, Nat.zero_le _, h.grown⟩

lemma call_spec (h : vec.Sound kind) (hprovides : ∀ n, provides n = true → n ≤ ptrdiffMax)
    (c : VecCall α) (hfits : c.Fits kind) :
    ∃ vec' ok, c.call kind provides vec = some (vec', ok) ∧
      Called kind provides vec.peak (c.apply (contents vec.data vec.len) ok) vec' ok := by
  cases c with
  | push a => exact push_spec h hprovides a
  | append items => exact append_spec h hprovides hfits.1 hfits.2
  | load items kept hkept => exact load_spec h hprovides hfits hkept
  | reset => exact ⟨vec.reset, true, rfl, reset_sound h, rfl, le_rfl, fun _ => rfl⟩

structure Ran (kind : VecKind) (vec : Vec α) (calls : List (VecCall α × (ℕ → Bool))) (vec' : Vec α)
    (oks : List Bool) : Prop where
  sound : vec'.Sound kind
  length_eq : oks.length = calls.length
  contents_eq : contents vec'.data vec'.len =
    VecCall.replay (contents vec.data vec.len) (calls.map Prod.fst) oks
  peak_le : vec.peak ≤ vec'.peak
  served : (∀ c ∈ calls, Memory kind c.2 vec'.peak) → ∀ ok ∈ oks, ok = true

lemma run_spec (calls : List (VecCall α × (ℕ → Bool)))
    (hcalls : ∀ c ∈ calls, c.1.Fits kind ∧ ∀ n, c.2 n = true → n ≤ ptrdiffMax) (h : vec.Sound kind) :
    ∃ vec' oks, VecCall.run kind vec calls = some (vec', oks) ∧ Ran kind vec calls vec' oks := by
  induction calls generalizing vec with
  | nil => exact ⟨vec, [], rfl, h, rfl, rfl, le_rfl, fun _ => nofun⟩
  | cons c calls ih =>
    obtain ⟨c, provides⟩ := c
    obtain ⟨hfits, hprovides⟩ := hcalls _ List.mem_cons_self
    obtain ⟨next, ok, hcall, hcalled⟩ := call_spec h hprovides c hfits
    obtain ⟨vec', oks, hrun, hran⟩ :=
      ih (fun c hc => hcalls c (List.mem_cons_of_mem _ hc)) hcalled.sound
    refine ⟨vec', ok :: oks, ?_, hran.sound, ?_, ?_, hcalled.peak_le.trans hran.peak_le, ?_⟩
    · rw [VecCall.run, hcall]
      change (VecCall.run kind next calls).bind _ = _
      rw [hrun]
      rfl
    · rw [List.length_cons, List.length_cons, hran.length_eq]
    · rw [hran.contents_eq, hcalled.contents_eq]
      rfl
    · intro hmemory
      rw [List.forall_mem_cons] at hmemory ⊢
      exact ⟨hcalled.served (hmemory.1.mono hran.peak_le), hran.served hmemory.2⟩

end Vec

theorem vectors_are_lists {α : Type} (kind : VecKind) (garbage : ℕ → α)
    (calls : List (VecCall α × (ℕ → Bool)))
    (hcalls : ∀ c ∈ calls, c.1.Fits kind ∧ ∀ n, c.2 n = true → n ≤ ptrdiffMax) :
    ∃ vec oks, VecCall.run kind (Vec.empty garbage) calls = some (vec, oks) ∧
      oks.length = calls.length ∧
      contents vec.data vec.len = VecCall.replay [] (calls.map Prod.fst) oks ∧
      vec.block = vec.cap * kind.item ∧ vec.len ≤ vec.cap ∧
      (vec.cap = 0 ∨ ∃ k, vec.cap = kind.first * 2 ^ k) ∧
      vec.moved ≤ vec.cap ∧ vec.cap ≤ max kind.first (2 * vec.peak) ∧
      ((∀ c ∈ calls, Vec.Memory kind c.2 vec.peak) → ∀ ok ∈ oks, ok = true) := by
  obtain ⟨vec, oks, hrun, hran⟩ := Vec.run_spec calls hcalls (Vec.empty_sound kind garbage)
  obtain ⟨hblock, -, hlen, hgrown⟩ := hran.sound
  exact ⟨vec, oks, hrun, hran.length_eq, hran.contents_eq, hblock, hlen, hgrown.power,
    hgrown.moved_le, hgrown.cap_le, hran.served⟩

theorem vectors_are_lists_refused :
    ∃ vec oks, VecCall.run byteVec (Vec.empty fun _ => (0 : UInt8))
        [(.append (List.replicate 60 97), (· ≤ 64)), (.append (List.replicate 60 98), (· ≤ 64)),
          (.push 99, (· ≤ 64))] = some (vec, oks) ∧ oks.length = 3 := by
  obtain ⟨vec, oks, hrun, hlength, -⟩ := vectors_are_lists byteVec (fun _ => (0 : UInt8))
    [(.append (List.replicate 60 97), (· ≤ 64)), (.append (List.replicate 60 98), (· ≤ 64)),
      (.push 99, (· ≤ 64))] (by
        intro c hc
        have hle : ∀ n, decide (n ≤ 64) = true → n ≤ ptrdiffMax := fun n hn =>
          (of_decide_eq_true hn).trans (by decide)
        simp only [List.mem_cons, List.not_mem_nil, or_false] at hc
        rcases hc with rfl | rfl | rfl
        · exact ⟨⟨rfl, by decide⟩, hle⟩
        · exact ⟨⟨rfl, by decide⟩, hle⟩
        · exact ⟨trivial, hle⟩)
  exact ⟨vec, oks, hrun, hlength⟩

end SystemsLab.Search
