import SystemsLab.CLib.Paths
import Mathlib.Logic.Function.Basic

namespace SystemsLab.CLib

inductive Node
  | file (bytes : Bytes)
  | directory
deriving DecidableEq

def Node.isDirectory : Node → Bool
  | .file _ => false
  | .directory => true

/-- `entry` is what a directory holds under a name, `.` and `..` among them. The inodes from `next` on
are free. -/
structure Disk where
  root : ℕ
  here : ℕ
  next : ℕ
  entry : ℕ → Bytes → Option ℕ
  node : ℕ → Node
  root_lt : root < next
  here_lt : here < next
  entry_lt : ∀ i name j, entry i name = some j → j < next

/-- `ENOENT`, `ENOTDIR` and `EISDIR`. -/
inductive PathError
  | missing
  | notDirectory
  | isDirectory
deriving DecidableEq

namespace Disk

variable (d : Disk)

def walk : ℕ → List Bytes → Except PathError ℕ
  | i, [] => .ok i
  | i, name :: names =>
    match d.node i with
    | .file _ => .error .notDirectory
    | .directory =>
      match d.entry i name with
      | none => .error .missing
      | some j => walk j names

def start (path : Bytes) : ℕ := if path.head? = some slash then d.root else d.here

/-- The inode that `stat` finds. A slash at the end asks for a directory. -/
def find (path : Bytes) : Except PathError ℕ :=
  if path = [] then .error .missing
  else
    match d.walk (d.start path) (components path) with
    | .error e => .error e
    | .ok i =>
      if path.getLast? = some slash ∧ (d.node i).isDirectory = false then .error .notDirectory else .ok i

def put (i : ℕ) (bytes : Bytes) : Disk := { d with node := Function.update d.node i (.file bytes) }

def add (i : ℕ) (name : Bytes) : Disk where
  root := d.root
  here := d.here
  next := d.next + 1
  entry := Function.update d.entry i (Function.update (d.entry i) name (some d.next))
  node := Function.update d.node d.next (.file [])
  root_lt := Nat.lt_succ_of_lt d.root_lt
  here_lt := Nat.lt_succ_of_lt d.here_lt
  entry_lt k other j h := by
    by_cases hk : k = i
    · subst hk
      rw [Function.update_self] at h
      by_cases hname : other = name
      · rw [hname, Function.update_self, Option.some.injEq] at h
        omega
      · rw [Function.update_of_ne hname] at h
        exact Nat.lt_succ_of_lt (d.entry_lt k other j h)
    · rw [Function.update_of_ne hk] at h
      exact Nat.lt_succ_of_lt (d.entry_lt k other j h)

/-- `open` with `O_CREAT` and `O_TRUNC`: the inode of the file, which is empty then. -/
def create (path : Bytes) : Except PathError (ℕ × Disk) :=
  match (components path).getLast? with
  | none => .error (if path = [] then .missing else .isDirectory)
  | some name =>
    match d.walk (d.start path) (components path).dropLast with
    | .error e => .error e
    | .ok i =>
      match d.node i with
      | .file _ => .error .notDirectory
      | .directory =>
        if path.getLast? = some slash then .error .isDirectory
        else
          match d.entry i name with
          | none => .ok (d.next, d.add i name)
          | some j =>
            match d.node j with
            | .directory => .error .isDirectory
            | .file _ => .ok (j, d.put j [])

def drop (i : ℕ) (name : Bytes) : Disk where
  root := d.root
  here := d.here
  next := d.next
  entry := Function.update d.entry i (Function.update (d.entry i) name none)
  node := d.node
  root_lt := d.root_lt
  here_lt := d.here_lt
  entry_lt k other j h := by
    by_cases hk : k = i
    · subst hk
      rw [Function.update_self] at h
      by_cases hname : other = name
      · rw [hname, Function.update_self] at h
        cases h
      · rw [Function.update_of_ne hname] at h
        exact d.entry_lt k other j h
    · rw [Function.update_of_ne hk] at h
      exact d.entry_lt k other j h

/-- `unlink`: a file loses this name, and keeps its others. -/
def unlink (path : Bytes) : Except PathError Disk :=
  match (components path).getLast? with
  | none => .error (if path = [] then .missing else .isDirectory)
  | some name =>
    match d.walk (d.start path) (components path).dropLast with
    | .error e => .error e
    | .ok i =>
      match d.node i with
      | .file _ => .error .notDirectory
      | .directory =>
        match d.entry i name with
        | none => .error .missing
        | some j =>
          match d.node j with
          | .directory => .error .isDirectory
          | .file _ =>
            if path.getLast? = some slash then .error .notDirectory else .ok (d.drop i name)

structure Extends (d d' : Disk) : Prop where
  root_eq : d'.root = d.root
  here_eq : d'.here = d.here
  next_le : d.next ≤ d'.next
  entry : ∀ i name j, d.entry i name = some j → d'.entry i name = some j
  entry_old : ∀ i name j, j < d.next → d'.entry i name = some j → d.entry i name = some j
  kind : ∀ i < d.next, (d'.node i).isDirectory = (d.node i).isDirectory
  kind_new : ∀ i, d.next ≤ i → i < d'.next → (d'.node i).isDirectory = false

/-- The entry that the path is about, there or not. -/
def Names (path : Bytes) (i : ℕ) (name : Bytes) : Prop :=
  d.walk (d.start path) (components path).dropLast = .ok i ∧ d.node i = .directory ∧
    (components path).getLast? = some name

structure Shrinks (d d' : Disk) : Prop where
  root_eq : d'.root = d.root
  here_eq : d'.here = d.here
  node_eq : d'.node = d.node
  entry : ∀ i name j, d'.entry i name = some j → d.entry i name = some j

variable {d} {d' d'' : Disk} {path name : Bytes} {names : List Bytes} {i j k : ℕ} {bytes : Bytes}

lemma Extends.refl (d : Disk) : Extends d d where
  root_eq := rfl
  here_eq := rfl
  next_le := le_rfl
  entry _ _ _ h := h
  entry_old _ _ _ _ h := h
  kind _ _ := rfl
  kind_new _ hi hi' := absurd hi' (Nat.not_lt.mpr hi)

lemma Extends.trans (h : Extends d d') (h' : Extends d' d'') : Extends d d'' where
  root_eq := h'.root_eq.trans h.root_eq
  here_eq := h'.here_eq.trans h.here_eq
  next_le := h.next_le.trans h'.next_le
  entry i name j hj := h'.entry i name j (h.entry i name j hj)
  entry_old i name j hj he :=
    h.entry_old i name j hj (h'.entry_old i name j (Nat.lt_of_lt_of_le hj h.next_le) he)
  kind i hi := (h'.kind i (Nat.lt_of_lt_of_le hi h.next_le)).trans (h.kind i hi)
  kind_new i hi hi' := by
    by_cases hold : i < d'.next
    · exact (h'.kind i hold).trans (h.kind_new i hi hold)
    · exact h'.kind_new i (Nat.not_lt.mp hold) hi'

lemma start_lt (d : Disk) (path : Bytes) : d.start path < d.next := by
  rw [start]
  split_ifs
  · exact d.root_lt
  · exact d.here_lt

lemma isDirectory_iff {n : Node} : n.isDirectory = true ↔ n = .directory := by
  cases n <;> simp [Node.isDirectory]

lemma walk_cons (h : d.walk i (name :: names) = .ok k) :
    d.node i = .directory ∧ ∃ j, d.entry i name = some j ∧ d.walk j names = .ok k := by
  rw [walk] at h
  cases hn : d.node i with
  | file bytes =>
    rw [hn] at h
    cases h
  | directory =>
    cases he : d.entry i name with
    | none =>
      simp only [hn, he] at h
      cases h
    | some j =>
      simp only [hn, he] at h
      exact ⟨rfl, j, rfl, h⟩

lemma walk_step (hn : d.node i = .directory) (he : d.entry i name = some j) :
    d.walk i (name :: names) = d.walk j names := by
  rw [walk]
  simp only [hn, he]

lemma Extends.directory (h : Extends d d') (hi : i < d.next) (hn : d.node i = .directory) :
    d'.node i = .directory := by
  rw [← isDirectory_iff, h.kind i hi, hn]
  rfl

lemma Extends.directory_back (h : Extends d d') (hi : i < d'.next) (hn : d'.node i = .directory) :
    i < d.next ∧ d.node i = .directory := by
  have hold : i < d.next := by
    by_contra hnew
    have hfile := h.kind_new i (Nat.not_lt.mp hnew) hi
    rw [hn] at hfile
    cases hfile
  refine ⟨hold, ?_⟩
  rw [← isDirectory_iff, ← h.kind i hold, hn]
  rfl

lemma Extends.walk (h : Extends d d') (hi : i < d.next) (hw : d.walk i names = .ok k) :
    d'.walk i names = .ok k ∧ k < d.next := by
  induction names generalizing i with
  | nil =>
    cases hw
    exact ⟨rfl, hi⟩
  | cons name names ih =>
    obtain ⟨hn, j, he, hw⟩ := walk_cons hw
    rw [walk_step (h.directory hi hn) (h.entry i name j he)]
    exact ih (d.entry_lt i name j he) hw

lemma walk_concat (h : d.walk i names = .ok j) (hn : d.node j = .directory)
    (he : d.entry j name = some k) : d.walk i (names ++ [name]) = .ok k := by
  induction names generalizing i with
  | nil =>
    cases h
    rw [List.nil_append, walk_step hn he]
    rfl
  | cons other names ih =>
    obtain ⟨hn', j', he', hw⟩ := walk_cons h
    rw [List.cons_append, walk_step hn' he']
    exact ih hw

lemma walk_split (h : d.walk i (names ++ [name]) = .ok k) :
    ∃ j, d.walk i names = .ok j ∧ d.node j = .directory ∧ d.entry j name = some k := by
  induction names generalizing i with
  | nil =>
    obtain ⟨hn, j, he, hw⟩ := walk_cons h
    cases hw
    exact ⟨i, rfl, hn, he⟩
  | cons other names ih =>
    obtain ⟨hn, j, he, hw⟩ := walk_cons h
    rw [walk_step hn he]
    exact ih hw

lemma find_eq (h : d.find path = .ok i) : path ≠ [] ∧ d.walk (d.start path) (components path) = .ok i ∧
    (path.getLast? = some slash → (d.node i).isDirectory = true) := by
  rw [find] at h
  split_ifs at h with hpath
  cases hw : d.walk (d.start path) (components path) with
  | error e =>
    rw [hw] at h
    cases h
  | ok j =>
    simp only [hw] at h
    split_ifs at h with hslash
    cases h
    refine ⟨hpath, rfl, fun hlast => ?_⟩
    exact Bool.eq_true_of_not_eq_false fun hkind => hslash ⟨hlast, hkind⟩

lemma find_of_walk (hpath : path ≠ []) (hw : d.walk (d.start path) (components path) = .ok i)
    (hslash : path.getLast? = some slash → (d.node i).isDirectory = true) : d.find path = .ok i := by
  rw [find, if_neg hpath, hw]
  refine if_neg ?_
  rintro ⟨hlast, hkind⟩
  rw [hslash hlast] at hkind
  cases hkind

lemma Extends.start (h : Extends d d') (path : Bytes) : d'.start path = d.start path := by
  rw [Disk.start, Disk.start, h.root_eq, h.here_eq]

lemma find_lt (h : d.find path = .ok i) : i < d.next :=
  ((Extends.refl d).walk (start_lt d path) (find_eq h).2.1).2

lemma Extends.find (h : Extends d d') (hfind : d.find path = .ok i) : d'.find path = .ok i := by
  obtain ⟨hpath, hw, hslash⟩ := find_eq hfind
  obtain ⟨hw', hi⟩ := h.walk (start_lt d path) hw
  refine find_of_walk hpath ?_ fun hlast => ?_
  · rw [h.start, hw']
  · rw [h.kind i hi]
    exact hslash hlast

lemma Extends.walk_back (h : Extends d d') (hi : i < d.next) (hk : k < d.next)
    (hw : d'.walk i names = .ok k) : d.walk i names = .ok k := by
  induction names generalizing i with
  | nil =>
    cases hw
    rfl
  | cons name names ih =>
    obtain ⟨hn, j, he, hw⟩ := walk_cons hw
    have hj : j < d.next := by
      -- A way does not go on from a new file.
      cases names with
      | nil =>
        cases hw
        exact hk
      | cons other names => exact (h.directory_back (d'.entry_lt i name j he) (walk_cons hw).1).1
    have hn' := (h.directory_back (Nat.lt_of_lt_of_le hi h.next_le) hn).2
    rw [walk_step hn' (h.entry_old i name j hj he)]
    exact ih hj hw

lemma Extends.find_back (h : Extends d d') (hi : i < d.next) (hfind : d'.find path = .ok i) :
    d.find path = .ok i := by
  obtain ⟨hpath, hw, hslash⟩ := find_eq hfind
  rw [h.start] at hw
  refine find_of_walk hpath (h.walk_back (start_lt d path) hi hw) fun hlast => ?_
  rw [← h.kind i hi]
  exact hslash hlast

lemma Extends.names_back (h : Extends d d') (hnames : d'.Names path i name) : d.Names path i name := by
  obtain ⟨hwalk, hn, hlast⟩ := hnames
  obtain ⟨hi, hn⟩ := h.directory_back ((Extends.refl d').walk (start_lt d' path) hwalk).2 hn
  rw [h.start] at hwalk
  exact ⟨h.walk_back (start_lt d path) hi hwalk, hn, hlast⟩

@[simp] lemma put_node_self : (d.put i bytes).node i = .file bytes := Function.update_self _ _ _

lemma put_node_ne (h : k ≠ i) : (d.put i bytes).node k = d.node k := Function.update_of_ne h _ _

lemma put_extends (h : (d.node i).isDirectory = false) (bytes : Bytes) : Extends d (d.put i bytes) := by
  refine ⟨rfl, rfl, le_rfl, fun _ _ _ h => h, fun _ _ _ _ h => h, fun k _ => ?_,
    fun k hk hk' => absurd hk' (Nat.not_lt.mpr hk)⟩
  by_cases hk : k = i
  · rw [hk, h, put_node_self]
    rfl
  · rw [put_node_ne hk]

lemma add_extends (h : d.entry i name = none) : Extends d (d.add i name) := by
  refine ⟨rfl, rfl, Nat.le_succ _, fun k other j hj => ?_, fun k other j hj he => ?_, fun k hk => ?_,
    fun k hk hk' => ?_⟩
  · by_cases hki : k = i
    · subst hki
      have hname : other ≠ name := by
        rintro rfl
        rw [h] at hj
        cases hj
      change Function.update d.entry k _ k other = some j
      rw [Function.update_self, Function.update_of_ne hname]
      exact hj
    · change Function.update d.entry i _ k other = some j
      rw [Function.update_of_ne hki]
      exact hj
  · change Function.update d.entry i _ k other = some j at he
    by_cases hki : k = i
    · subst hki
      rw [Function.update_self] at he
      by_cases hname : other = name
      · rw [hname, Function.update_self, Option.some_inj] at he
        exact absurd he (Nat.ne_of_gt hj)
      · rwa [Function.update_of_ne hname] at he
    · rwa [Function.update_of_ne hki] at he
  · change (Function.update d.node d.next (.file []) k).isDirectory = (d.node k).isDirectory
    rw [Function.update_of_ne (Nat.ne_of_lt hk)]
  · obtain rfl : k = d.next := Nat.le_antisymm (Nat.lt_succ_iff.mp hk') hk
    change (Function.update d.node d.next (.file []) d.next).isDirectory = false
    rw [Function.update_self]
    rfl

lemma add_entry : (d.add i name).entry i name = some d.next := by
  change Function.update d.entry i _ i name = some d.next
  rw [Function.update_self, Function.update_self]

lemma add_entry_ne {other : Bytes} (h : k = i → other ≠ name) :
    (d.add i name).entry k other = d.entry k other := by
  change Function.update d.entry i _ k other = d.entry k other
  by_cases hk : k = i
  · rw [hk, Function.update_self, Function.update_of_ne (h hk)]
  · rw [Function.update_of_ne hk]

/-- What `open` with `O_CREAT` and `O_TRUNC` does: it empties one file, which may be new. -/
structure Created (d : Disk) (path : Bytes) (j : ℕ) (d' : Disk) : Prop where
  grows : Extends d d'
  found : d'.find path = .ok j
  empty : d'.node j = .file []
  others : ∀ k < d.next, k ≠ j → d'.node k = d.node k
  added : ∀ k other, d'.entry k other ≠ d.entry k other → d.Names path k other
  known : d.find path = .ok j ∨ j = d.next
  plain : path.getLast? ≠ some slash

lemma create_spec (h : d.create path = .ok (j, d')) : Created d path j d' := by
  rw [create] at h
  cases hlast : (components path).getLast? with
  | none =>
    rw [hlast] at h
    cases h
  | some name =>
    have hnames : (components path).dropLast ++ [name] = components path := by
      rw [List.dropLast_append_getLast?]
      exact hlast
    have hpath : path ≠ [] := by
      rintro rfl
      rw [components_nil] at hlast
      cases hlast
    rw [hlast] at h
    simp only at h
    cases hwalk : d.walk (d.start path) (components path).dropLast with
    | error e =>
      rw [hwalk] at h
      cases h
    | ok i =>
      have hi := ((Extends.refl d).walk (start_lt d path) hwalk).2
      simp only [hwalk] at h
      cases hn : d.node i with
      | file bytes =>
        simp only [hn] at h
        cases h
      | directory =>
        simp only [hn] at h
        split_ifs at h with hslash
        have hfound : ∀ {d₁ : Disk} {j₁ : ℕ}, Extends d d₁ → d₁.entry i name = some j₁ →
            d₁.find path = .ok j₁ := by
          intro d₁ j₁ hgrows he
          refine find_of_walk hpath ?_ fun hlast => absurd hlast hslash
          rw [hgrows.start, ← hnames]
          exact walk_concat (hgrows.walk (start_lt d path) hwalk).1 (hgrows.directory hi hn) he
        cases he : d.entry i name with
        | none =>
          simp only [he] at h
          cases h
          refine ⟨add_extends he, hfound (add_extends he) add_entry, ?_, fun k hk _ => ?_,
            fun k other hne => ?_, Or.inr rfl, hslash⟩
          · exact Function.update_self _ _ _
          · exact Function.update_of_ne (Nat.ne_of_lt hk) _ _
          · obtain ⟨rfl, rfl⟩ : k = i ∧ other = name := by
              by_contra hother
              exact hne (add_entry_ne fun hk hname => hother ⟨hk, hname⟩)
            exact ⟨hwalk, hn, hlast⟩
        | some j₁ =>
          simp only [he] at h
          cases hkind : d.node j₁ with
          | directory =>
            simp only [hkind] at h
            cases h
          | file bytes =>
            simp only [hkind] at h
            cases h
            have hgrows : Extends d (d.put j []) := put_extends (by rw [hkind]; rfl) []
            refine ⟨hgrows, hfound hgrows he, put_node_self, fun k _ hk => put_node_ne hk,
              fun k other hne => absurd rfl hne, Or.inl ?_, hslash⟩
            exact hfound (.refl d) he

namespace Shrinks

lemma refl (d : Disk) : Shrinks d d := ⟨rfl, rfl, rfl, fun _ _ _ h => h⟩

lemma trans (h : Shrinks d d') (h' : Shrinks d' d'') : Shrinks d d'' where
  root_eq := h'.root_eq.trans h.root_eq
  here_eq := h'.here_eq.trans h.here_eq
  node_eq := h'.node_eq.trans h.node_eq
  entry i name j hj := h.entry i name j (h'.entry i name j hj)

lemma start (h : Shrinks d d') (path : Bytes) : d'.start path = d.start path := by
  rw [Disk.start, Disk.start, h.root_eq, h.here_eq]

lemma walk (h : Shrinks d d') (hw : d'.walk i names = .ok k) : d.walk i names = .ok k := by
  induction names generalizing i with
  | nil =>
    cases hw
    rfl
  | cons name names ih =>
    obtain ⟨hn, j, he, hw⟩ := walk_cons hw
    rw [walk_step (h.node_eq ▸ hn) (h.entry i name j he)]
    exact ih hw

lemma find (h : Shrinks d d') (hfind : d'.find path = .ok i) : d.find path = .ok i := by
  obtain ⟨hpath, hw, hslash⟩ := find_eq hfind
  rw [h.start] at hw
  refine find_of_walk hpath (h.walk hw) fun hlast => ?_
  rw [← h.node_eq]
  exact hslash hlast

end Shrinks

lemma drop_entry_self : (d.drop i name).entry i name = none := by
  change Function.update d.entry i _ i name = none
  rw [Function.update_self, Function.update_self]

lemma drop_entry_ne {other : Bytes} (h : k = i → other ≠ name) :
    (d.drop i name).entry k other = d.entry k other := by
  change Function.update d.entry i _ k other = d.entry k other
  by_cases hk : k = i
  · subst hk
    rw [Function.update_self, Function.update_of_ne (h rfl)]
  · rw [Function.update_of_ne hk]

lemma drop_shrinks : Shrinks d (d.drop i name) := by
  refine ⟨rfl, rfl, rfl, fun k other j hj => ?_⟩
  by_cases h : k = i ∧ other = name
  · obtain ⟨rfl, rfl⟩ := h
    rw [drop_entry_self] at hj
    cases hj
  · rwa [drop_entry_ne fun hk hname => h ⟨hk, hname⟩] at hj

lemma walk_drop (he : d.entry i name = some j) (hfile : d.node j = .file bytes) {a : ℕ}
    (hw : d.walk a names = .ok k) (hk : k ≠ j) : (d.drop i name).walk a names = .ok k := by
  induction names generalizing a with
  | nil => exact hw
  | cons other names ih =>
    obtain ⟨hn, b, hb, hw⟩ := walk_cons hw
    have hne : a = i → other ≠ name := by
      rintro rfl rfl
      rw [he, Option.some.injEq] at hb
      subst hb
      cases names with
      | nil =>
        cases hw
        exact hk rfl
      | cons next names =>
        rw [(walk_cons hw).1] at hfile
        cases hfile
    have hb' : (d.drop i name).entry a other = some b := (drop_entry_ne hne).trans hb
    rw [walk_step (show (d.drop i name).node a = .directory from hn) hb']
    exact ih hw

/-- What `unlink` does: the path led to a file, and leads nowhere. The ways to other inodes stay. -/
structure Unlinked (d : Disk) (path : Bytes) (j : ℕ) (d' : Disk) : Prop where
  shrinks : Shrinks d d'
  found : d.find path = .ok j
  file : (d.node j).isDirectory = false
  gone : ∀ k, d'.find path ≠ .ok k
  others : ∀ other k, d.find other = .ok k → k ≠ j → d'.find other = .ok k

lemma unlink_spec (h : d.unlink path = .ok d') : ∃ j, Unlinked d path j d' := by
  rw [unlink] at h
  cases hlast : (components path).getLast? with
  | none =>
    rw [hlast] at h
    cases h
  | some name =>
    have hnames : (components path).dropLast ++ [name] = components path := by
      rw [List.dropLast_append_getLast?]
      exact hlast
    have hpath : path ≠ [] := by
      rintro rfl
      rw [components_nil] at hlast
      cases hlast
    rw [hlast] at h
    simp only at h
    cases hwalk : d.walk (d.start path) (components path).dropLast with
    | error e =>
      rw [hwalk] at h
      cases h
    | ok i =>
      simp only [hwalk] at h
      cases hn : d.node i with
      | file bytes =>
        simp only [hn] at h
        cases h
      | directory =>
        simp only [hn] at h
        cases he : d.entry i name with
        | none =>
          simp only [he] at h
          cases h
        | some j =>
          simp only [he] at h
          cases hfile : d.node j with
          | directory =>
            simp only [hfile] at h
            cases h
          | file bytes =>
            simp only [hfile] at h
            split_ifs at h with hslash
            cases h
            refine ⟨j, drop_shrinks, ?_, by rw [hfile]; rfl, fun k hk => ?_, fun other k hk hne => ?_⟩
            · refine find_of_walk hpath ?_ fun hlast => absurd hlast hslash
              rw [← hnames]
              exact walk_concat hwalk hn he
            · have hw := (find_eq hk).2.1
              rw [← hnames, drop_shrinks.start] at hw
              obtain ⟨i', hi', -, he'⟩ := walk_split hw
              have hsame : i' = i := by
                have hback := drop_shrinks.walk hi'
                rw [hwalk] at hback
                exact (Except.ok.inj hback).symm
              rw [hsame, drop_entry_self] at he'
              cases he'
            · obtain ⟨hother, hw, hkind⟩ := find_eq hk
              exact find_of_walk hother (walk_drop he hfile hw hne) hkind

lemma unlink_of_find (hfind : d.find path = .ok j) (hfile : (d.node j).isDirectory = false)
    (hlast : (components path).getLast? = some name) : ∃ d', d.unlink path = .ok d' := by
  obtain ⟨-, hw, hslash⟩ := find_eq hfind
  have hnames : (components path).dropLast ++ [name] = components path := by
    rw [List.dropLast_append_getLast?]
    exact hlast
  rw [← hnames] at hw
  obtain ⟨i, hwalk, hn, he⟩ := walk_split hw
  have hnoslash : ¬ path.getLast? = some slash := by
    intro hs
    rw [hslash hs] at hfile
    cases hfile
  rw [unlink, hlast]
  simp only [hwalk, hn, he]
  cases hnode : d.node j with
  | directory =>
    rw [hnode] at hfile
    cases hfile
  | file bytes => exact ⟨_, if_neg hnoslash⟩

end Disk

lemma ok_of_mapError {ε ε' α : Type} {m : Except ε α} {f : ε → ε'} {a : α} (h : m.mapError f = .ok a) :
    m = .ok a := by
  cases m with
  | error e => cases h
  | ok b => exact congrArg Except.ok (Except.ok.inj h)

end SystemsLab.CLib
