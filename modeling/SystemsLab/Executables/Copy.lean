import SystemsLab.CLib.Disk
import SystemsLab.Executables.Move
import SystemsLab.Streams.Relay

namespace SystemsLab.Executables.Copy

open CLib Streams

def bufferSize : ℕ := 8192

/-- `refusesInput` and `refusesOutput` are the reasons for which `open` fails on a path that leads to a
file. Each list of answers is for one operand. -/
structure World extends Executables.World where
  strerror : PathError → Bytes
  refusesInput : ℕ → Option Bytes
  refusesOutput : ℕ → Option Bytes
  reads : ℕ → List Answer
  writes : ℕ → List Answer
  closesInput : ℕ → Bool
  closesOutput : ℕ → Bool

structure Run where
  disk : Disk
  err : Bytes

def complaint (text : Bytes) : Bytes := ascii "pa2_cp: " ++ text ++ [newline]

def Run.complain (r : Run) (text : Bytes) : Run := { r with err := r.err ++ complaint text }

def readRetries : Retries := ⟨false, true⟩

def writeRetries : Retries := ⟨false, true⟩

def quoted (path : Bytes) : Bytes := ascii "'" ++ path ++ ascii "'"

def pa2Basename (path : Bytes) : Bytes :=
  match strrchr path slash with
  | none => path
  | some p => if p.length = 1 then p else p.drop 1

def cannotStat (path reason : Bytes) : Bytes :=
  ascii "cannot stat " ++ quoted path ++ ascii ": " ++ reason

def cannotCreate (path reason : Bytes) : Bytes :=
  ascii "cannot create regular file " ++ quoted path ++ ascii ": " ++ reason

variable (w : World)

/-- This is the function of `pa2_mv` with another complaint, as are `ends_with_slash` and `strdup`. -/
def joinPath (dir base : Bytes) : Except Bytes Bytes :=
  (Move.joinPath w.toWorld dir base).mapError fun _ => complaint w.reason

def resolveTarget (d : Disk) (source dest : Bytes) (multipleSources : Bool) : Except Bytes Bytes :=
  match d.find dest with
  | .error e =>
    if e = .notDirectory then .error (complaint (cannotStat dest (ascii "Not a directory")))
    else if multipleSources || Move.endsWithSlash dest then
      .error (complaint (cannotCreate dest (ascii "Not a directory")))
    else Move.strdup w.toWorld dest
  | .ok i =>
    if (d.node i).isDirectory then joinPath w dest (pa2Basename source)
    else if multipleSources || Move.endsWithSlash dest then
      .error (complaint (cannotStat dest (ascii "Not a directory")))
    else Move.strdup w.toWorld dest

def openInput (k : ℕ) (d : Disk) (source : Bytes) : Except Bytes ℕ :=
  match w.refusesInput k with
  | some reason => .error reason
  | none => (d.find source).mapError w.strerror

def openOutput (k : ℕ) (d : Disk) (target : Bytes) : Except Bytes (ℕ × Disk) :=
  match w.refusesOutput k with
  | some reason => .error reason
  | none => (d.create target).mapError w.strerror

/-- The loop of `copy_file_contents`. A directory can be opened, but not read. -/
def copyBytes (k : ℕ) : Node → Relayed UInt8 Unit
  | .file bytes =>
    relay (.plain UInt8) readRetries writeRetries bufferSize (w.reads k) (w.writes k) () bytes
  | .directory => ⟨[], .readFailed, (), [], w.writes k⟩

def copyEnd (source target : Bytes) : Ending → Run → ℕ × Run
  | .atEnd, r => (0, r)
  | .readFailed, r =>
    (1, r.complain (ascii "error reading " ++ quoted source ++ ascii ": " ++ w.reason))
  | .writeFailed, r =>
    (1, r.complain (ascii "error writing " ++ quoted target ++ ascii ": " ++ w.reason))

def closeBoth (k : ℕ) (target : Bytes) (status : ℕ) (r : Run) : ℕ × Run :=
  if w.closesOutput k then (if w.closesInput k then status else 1, r)
  else (1, r.complain (ascii "error writing " ++ quoted target ++ ascii ": " ++ w.reason))

def copyFileContents (k : ℕ) (source target : Bytes) (r : Run) : ℕ × Run :=
  match openInput w k r.disk source with
  | .error reason =>
    (1, r.complain (ascii "cannot open " ++ quoted source ++ ascii " for reading: " ++ reason))
  | .ok i =>
    match openOutput w k r.disk target with
    | .error reason => (1, r.complain (cannotCreate target reason))
    | .ok (j, disk) =>
      let copied := copyBytes w k (disk.node i)
      let (status, r) := copyEnd w source target copied.ending { r with disk := disk.put j copied.out }
      closeBoth w k target status r

def copyOne (k : ℕ) (source dest : Bytes) (multipleSources : Bool) (r : Run) : ℕ × Run :=
  match r.disk.find source with
  | .error e => (1, r.complain (cannotStat source (w.strerror e)))
  | .ok i =>
    match resolveTarget w r.disk source dest multipleSources with
    | .error text => (1, { r with err := r.err ++ text })
    | .ok target =>
      if r.disk.find target = .ok i then
        (1, r.complain (quoted source ++ ascii " and " ++ quoted target ++ ascii " are the same file"))
      else copyFileContents w k source target r

/-- The loop of `main`. -/
def copyAll (dest : Bytes) (multipleSources : Bool) (k : ℕ) : List Bytes → ℕ → Run → ℕ × Run
  | [], status, r => (status, r)
  | source :: sources, status, r =>
    let (failed, r) := copyOne w k source dest multipleSources r
    copyAll dest multipleSources (k + 1) sources (if failed ≠ 0 then 1 else status) r

def main (argv : List Bytes) (r : Run) : ℕ × Run :=
  match argv with
  | [] | [_] => (1, r.complain (ascii "missing file operand"))
  | [_, source] => (1, r.complain (ascii "missing destination file operand after " ++ quoted source))
  | _ :: args =>
    let (status, r) := copyAll w (args.getLastD []) (args.length > 2) 0 args.dropLast 0 r
    (if status = 0 then 0 else 1, r)

def Targets (d : Disk) (dest source target : Bytes) : Prop :=
  (target = dest ∧ ∀ i, d.find dest = .ok i → d.node i ≠ .directory) ∨
    ∃ i, d.find dest = .ok i ∧ d.node i = .directory ∧ Move.EntryUnder dest source target

def Copied (d : Disk) (source target : Bytes) (d' : Disk) : Prop :=
  ∃ i j bytes, d.find source = .ok i ∧ d.node i = .file bytes ∧ d'.find target = .ok j ∧ j ≠ i ∧
    d'.node j = .file bytes

structure Spares (d : Disk) (target : Bytes) (d' : Disk) : Prop where
  grows : d.Extends d'
  others : ∀ k < d.next, d'.find target ≠ .ok k → d'.node k = d.node k
  added : ∀ i name, d'.entry i name ≠ d.entry i name → d.Names target i name

inductive Copies (dest : Bytes) : List Bytes → Disk → Disk → Prop
  | nil (d : Disk) : Copies dest [] d d
  | cons {source target : Bytes} {sources : List Bytes} {d d' d'' : Disk} :
      Targets d dest source target → Copied d source target d' → Spares d target d' →
      Copies dest sources d' d'' → Copies dest (source :: sources) d d''

/-- The destination is a directory, and the entry of it under the last component of a source is meant. -/
def Within (d : Disk) (dest : Bytes) (sources : List Bytes) (i : ℕ) (name : Bytes) : Prop :=
  d.find dest = .ok i ∧ d.node i = .directory ∧
    ∃ source ∈ sources, (components source).getLast? = some name

def Destined (d : Disk) (dest : Bytes) (sources : List Bytes) (k : ℕ) : Prop :=
  d.find dest = .ok k ∨ ∃ i name, Within d dest sources i name ∧ d.entry i name = some k

structure Confined (d : Disk) (dest : Bytes) (sources : List Bytes) (d' : Disk) : Prop where
  grows : d.Extends d'
  destined : ∀ k < d.next, d'.node k ≠ d.node k → Destined d dest sources k
  added : ∀ i name, d'.entry i name ≠ d.entry i name →
    d.Names dest i name ∨ Within d dest sources i name

variable {w} {d d' d'' : Disk} {r : Run} {k i j status : ℕ} {source dest target path text bytes : Bytes}
  {sources args : List Bytes} {multipleSources : Bool}

lemma complaint_ne_nil (text : Bytes) : complaint text ≠ [] := by
  rw [complaint]
  simp

lemma Within.mono {name : Bytes} (h : Within d dest sources i name) (hsub : sources ⊆ args) :
    Within d dest args i name := by
  obtain ⟨hfind, hdir, source, hsource, hname⟩ := h
  exact ⟨hfind, hdir, source, hsub hsource, hname⟩

lemma Within.back {name : Bytes} (h : Within d' dest sources i name) (hgrows : d.Extends d') :
    Within d dest sources i name := by
  obtain ⟨hfind, hdir, hname⟩ := h
  obtain ⟨hi, hdir⟩ := hgrows.directory_back (Disk.find_lt hfind) hdir
  exact ⟨hgrows.find_back hi hfind, hdir, hname⟩

lemma Destined.mono (h : Destined d dest sources k) (hsub : sources ⊆ args) :
    Destined d dest args k := by
  rcases h with h | ⟨i, name, hwithin, he⟩
  · exact .inl h
  · exact .inr ⟨i, name, hwithin.mono hsub, he⟩

lemma Destined.back (h : Destined d' dest sources k) (hgrows : d.Extends d') (hk : k < d.next) :
    Destined d dest sources k := by
  rcases h with h | ⟨i, name, hwithin, he⟩
  · exact .inl (hgrows.find_back hk h)
  · exact .inr ⟨i, name, hwithin.back hgrows, hgrows.entry_old i name k hk he⟩

namespace Confined

lemma refl (d : Disk) (dest : Bytes) (sources : List Bytes) : Confined d dest sources d :=
  ⟨.refl d, fun _ _ h => absurd rfl h, fun _ _ h => absurd rfl h⟩

lemma mono (h : Confined d dest sources d') (hsub : sources ⊆ args) : Confined d dest args d' :=
  ⟨h.grows, fun k hk hne => (h.destined k hk hne).mono hsub,
    fun i name hne => (h.added i name hne).imp_right fun hwithin => hwithin.mono hsub⟩

lemma trans (h : Confined d dest sources d') (h' : Confined d' dest sources d'') :
    Confined d dest sources d'' := by
  refine ⟨h.grows.trans h'.grows, fun k hk hne => ?_, fun i name hne => ?_⟩
  · by_cases hlater : d''.node k = d'.node k
    · exact h.destined k hk (hlater ▸ hne)
    · exact (h'.destined k (Nat.lt_of_lt_of_le hk h.grows.next_le) hlater).back h.grows hk
  · by_cases hlater : d''.entry i name = d'.entry i name
    · exact h.added i name (hlater ▸ hne)
    · rcases h'.added i name hlater with hnames | hwithin
      · exact .inl (h.grows.names_back hnames)
      · exact .inr (hwithin.back h.grows)

end Confined

lemma pa2Basename_eq (h : Move.endsWithSlash path = false) (hpath : path ≠ []) :
    pa2Basename path = Move.pa2Basename path := by
  have hname : Move.pa2Basename path ≠ [] := by
    rw [ne_eq, Move.pa2Basename_eq_nil_iff hpath, h]
    exact Bool.false_ne_true
  rw [pa2Basename, Move.pa2Basename] at *
  cases hlast : strrchr path slash with
  | none => rfl
  | some p =>
    rw [hlast] at hname
    refine if_neg fun hone => hname ?_
    exact List.drop_eq_nil_of_le hone.le

lemma endsWithSlash_of_file (hfind : d.find path = .ok i) (hfile : d.node i = .file bytes) :
    Move.endsWithSlash path = false := by
  obtain ⟨-, -, hslash⟩ := Disk.find_eq hfind
  refine Bool.eq_false_of_not_eq_true fun hends => ?_
  obtain ⟨dir, rfl⟩ := Move.endsWithSlash_iff.mp hends
  have hkind := hslash List.getLast?_concat
  rw [hfile] at hkind
  cases hkind

lemma components_joinPath (h : joinPath w dest path = .ok target) :
    components target = components dest ++ components path := by
  rw [joinPath] at h
  exact Move.components_joinPath (ok_of_mapError h)

lemma eq_of_strdup (h : Move.strdup w.toWorld dest = .ok target) : target = dest := by
  rw [Move.strdup] at h
  split_ifs at h
  exact (Except.ok.inj h).symm

lemma joinPath_eq (h : joinPath w dest path = .ok target) : ∃ sep, target = dest ++ sep ++ path := by
  rw [joinPath] at h
  have hjoin := ok_of_mapError h
  rw [Move.joinPath] at hjoin
  split at hjoin
  · exact ⟨_, (Except.ok.inj hjoin).symm⟩
  · cases hjoin

lemma resolveTarget_cases (h : resolveTarget w d source dest multipleSources = .ok target) :
    (target = dest ∧ ∀ i, d.find dest = .ok i → d.node i ≠ .directory) ∨
      ∃ i, d.find dest = .ok i ∧ d.node i = .directory ∧
        joinPath w dest (pa2Basename source) = .ok target := by
  rw [resolveTarget] at h
  cases hfind : d.find dest with
  | error e =>
    simp only [hfind] at h
    split_ifs at h
    exact Or.inl ⟨eq_of_strdup h, by rintro i ⟨⟩⟩
  | ok i =>
    simp only [hfind] at h
    split_ifs at h with hkind
    · exact Or.inr ⟨i, rfl, Disk.isDirectory_iff.mp hkind, h⟩
    · refine Or.inl ⟨eq_of_strdup h, ?_⟩
      rintro i' ⟨⟩ hdir
      exact hkind (Disk.isDirectory_iff.mpr hdir)

lemma pa2Basename_of_endsWithSlash (h : Move.endsWithSlash path = true) :
    pa2Basename path = [slash] := by
  obtain ⟨dir, rfl⟩ := Move.endsWithSlash_iff.mp h
  rw [pa2Basename]
  cases hlast : strrchr (dir ++ [slash]) slash with
  | none => exact absurd (List.mem_append_right dir (List.mem_singleton_self slash)) (not_mem_of_strrchr hlast)
  | some p =>
    obtain ⟨front, back, hsplit, rfl, hback⟩ := strrchr_split hlast
    have hnil : back = [] := by
      by_contra hne
      have hlast := congrArg List.getLast? hsplit
      rw [List.getLast?_concat, List.getLast?_append_of_ne_nil _ (List.cons_ne_nil _ _),
        List.getLast?_cons_of_ne_nil hne] at hlast
      exact hback (List.mem_of_getLast? hlast.symm)
    rw [hnil]
    rfl

lemma within_of_resolveTarget (h : resolveTarget w d source dest multipleSources = .ok target)
    (hsource : source ≠ []) (hplain : target.getLast? ≠ some slash) :
    target = dest ∨ ∃ i name, Within d dest [source] i name ∧
      d.walk (d.start target) (components dest) = .ok i ∧ components target = components dest ++ [name] := by
  rcases resolveTarget_cases h with ⟨rfl, -⟩ | ⟨i, hdest, hdir, hjoin⟩
  · exact .inl rfl
  · have hends : Move.endsWithSlash source = false := by
      refine Bool.eq_false_of_not_eq_true fun hends => hplain ?_
      rw [pa2Basename_of_endsWithSlash hends] at hjoin
      obtain ⟨sep, rfl⟩ := joinPath_eq hjoin
      exact List.getLast?_concat
    have hname : Move.pa2Basename source ≠ [] := by
      rw [ne_eq, Move.pa2Basename_eq_nil_iff hsource, hends]
      exact Bool.false_ne_true
    rw [pa2Basename_eq hends hsource] at hjoin
    obtain ⟨hne, hwalk, -⟩ := Disk.find_eq hdest
    have hcomponents := components_joinPath hjoin
    rw [components_name (Move.slash_not_mem_pa2Basename source) hname] at hcomponents
    have hstart : d.start target = d.start dest := by
      obtain ⟨sep, rfl⟩ := joinPath_eq hjoin
      rw [Disk.start, Disk.start, List.append_assoc, List.head?_append_of_ne_nil _ hne]
    rw [← hstart] at hwalk
    exact .inr ⟨i, _, ⟨hdest, hdir, source, List.mem_singleton_self source,
      Move.getLast_components hname⟩, hwalk, hcomponents⟩

lemma destined_of_resolveTarget (h : resolveTarget w d source dest multipleSources = .ok target)
    (hsource : source ≠ []) (hplain : target.getLast? ≠ some slash) (hfind : d.find target = .ok k) :
    Destined d dest [source] k := by
  rcases within_of_resolveTarget h hsource hplain with rfl | ⟨i, name, hwithin, hwalk, hcomponents⟩
  · exact .inl hfind
  · have htarget := (Disk.find_eq hfind).2.1
    rw [hcomponents] at htarget
    obtain ⟨i', hi', -, he⟩ := Disk.walk_split htarget
    obtain rfl : i = i' := Except.ok.inj (hwalk.symm.trans hi')
    exact .inr ⟨i, name, hwithin, he⟩

lemma added_of_resolveTarget {name : Bytes}
    (h : resolveTarget w d source dest multipleSources = .ok target) (hsource : source ≠ [])
    (hplain : target.getLast? ≠ some slash) (hnames : d.Names target k name) :
    d.Names dest k name ∨ Within d dest [source] k name := by
  rcases within_of_resolveTarget h hsource hplain with rfl | ⟨i, other, hwithin, hwalk, hcomponents⟩
  · exact .inl hnames
  · obtain ⟨hwalk', -, hlast⟩ := hnames
    rw [hcomponents, List.dropLast_concat] at hwalk'
    rw [hcomponents, List.getLast?_concat] at hlast
    cases hlast
    obtain rfl : i = k := Except.ok.inj (hwalk.symm.trans hwalk')
    exact .inr hwithin

lemma targets_of_resolveTarget (h : resolveTarget w d source dest multipleSources = .ok target)
    (hfind : d.find source = .ok j) (hfile : d.node j = .file bytes) : Targets d dest source target := by
  rcases resolveTarget_cases h with hdest | ⟨i, hi, hdir, hjoin⟩
  · exact Or.inl hdest
  · refine Or.inr ⟨i, hi, hdir, ?_⟩
    have hends := endsWithSlash_of_file hfind hfile
    have hsource := (Disk.find_eq hfind).1
    have hname : Move.pa2Basename source ≠ [] := by
      rw [ne_eq, Move.pa2Basename_eq_nil_iff hsource, hends]
      exact Bool.false_ne_true
    have htarget := components_joinPath hjoin
    rw [pa2Basename_eq hends hsource, components_name (Move.slash_not_mem_pa2Basename source) hname]
      at htarget
    exact ⟨_, Move.getLast_components hname, htarget⟩

lemma copyBytes_atEnd {n : Node} (h : (copyBytes w k n).ending = .atEnd) :
    n = .file (copyBytes w k n).out := by
  cases n with
  | directory => cases h
  | file bytes =>
    have hspec := relay_spec (.plain UInt8) readRetries writeRetries (by decide : 0 < bufferSize)
      (w.reads k) (w.writes k) () bytes
    have hout := hspec.out_eq h
    rw [Machine.text_plain] at hout
    exact congrArg Node.file hout.symm

structure Reported (r : Run) (done : ℕ × Run) : Prop where
  disk_eq : done.2.disk = r.disk
  grows : r.err <+: done.2.err
  silent : done.1 = 0 → done.2.err = r.err

lemma reported_complain (r : Run) (text : Bytes) : Reported r (1, r.complain text) :=
  ⟨rfl, List.prefix_append _ _, fun h => absurd h (Nat.succ_ne_zero 0)⟩

lemma complain_ne (r : Run) (text : Bytes) : (r.complain text).err ≠ r.err :=
  fun h => complaint_ne_nil text (List.append_right_eq_self.mp h)

lemma copyEnd_spec (source target : Bytes) (e : Ending) (r : Run) :
    Reported r (copyEnd w source target e r) ∧ ((copyEnd w source target e r).1 = 0 → e = .atEnd) ∧
      ((copyEnd w source target e r).2.err = r.err → (copyEnd w source target e r).1 = 0) := by
  cases e with
  | atEnd => exact ⟨⟨rfl, List.prefix_rfl, fun _ => rfl⟩, fun _ => rfl, fun _ => rfl⟩
  | readFailed =>
    exact ⟨reported_complain r _, fun h => absurd h (Nat.succ_ne_zero 0),
      fun h => absurd h (complain_ne r _)⟩
  | writeFailed =>
    exact ⟨reported_complain r _, fun h => absurd h (Nat.succ_ne_zero 0),
      fun h => absurd h (complain_ne r _)⟩

lemma closeBoth_spec (k : ℕ) (target : Bytes) (status : ℕ) (r : Run) :
    Reported r (closeBoth w k target status r) ∧ ((closeBoth w k target status r).1 = 0 → status = 0) ∧
      (w.closesInput k = true → (closeBoth w k target status r).2.err = r.err →
        (closeBoth w k target status r).1 = status) := by
  rw [closeBoth]
  split_ifs with hout hin
  · exact ⟨⟨rfl, List.prefix_rfl, fun _ => rfl⟩, id, fun _ _ => rfl⟩
  · exact ⟨⟨rfl, List.prefix_rfl, fun _ => rfl⟩, False.elim, fun h => absurd h hin⟩
  · exact ⟨reported_complain r _, False.elim, fun _ h => absurd h (complain_ne r _)⟩

structure CopySpec (w : World) (k : ℕ) (source dest : Bytes) (r : Run) (done : ℕ × Run) : Prop where
  confined : Confined r.disk dest [source] done.2.disk
  grows : r.err <+: done.2.err
  silent : done.1 = 0 → done.2.err = r.err
  copies : done.1 = 0 → ∃ target, Targets r.disk dest source target ∧
    Copied r.disk source target done.2.disk ∧ Spares r.disk target done.2.disk
  complains : (∀ n, w.provides n = true) → w.closesInput k = true → done.2.err = r.err → done.1 = 0

lemma copySpec_complain (text : Bytes) : CopySpec w k source dest r (1, r.complain text) :=
  ⟨.refl _ _ _, List.prefix_append _ _, fun h => absurd h (Nat.succ_ne_zero 0),
    fun h => absurd h (Nat.succ_ne_zero 0), fun _ _ h => absurd h (complain_ne r text)⟩

lemma spares_put {disk : Disk} (h : Disk.Created d target j disk) (bytes : Bytes) :
    Spares d target (disk.put j bytes) ∧ (disk.put j bytes).find target = .ok j := by
  have hput : disk.Extends (disk.put j bytes) := Disk.put_extends (by rw [h.empty]; rfl) bytes
  have hfind : (disk.put j bytes).find target = .ok j := hput.find h.found
  refine ⟨⟨h.grows.trans hput, fun k hk hne => ?_, h.added⟩, hfind⟩
  have hkj : k ≠ j := by
    rintro rfl
    exact hne hfind
  rw [Disk.put_node_ne hkj]
  exact h.others k hk hkj

lemma find_of_openInput (h : openInput w k d source = .ok i) : d.find source = .ok i := by
  rw [openInput] at h
  cases hrefuses : w.refusesInput k with
  | some reason =>
    rw [hrefuses] at h
    cases h
  | none =>
    rw [hrefuses] at h
    exact ok_of_mapError h

lemma created_of_openOutput (h : openOutput w k d target = .ok (j, d')) :
    Disk.Created d target j d' := by
  rw [openOutput] at h
  cases hrefuses : w.refusesOutput k with
  | some reason =>
    rw [hrefuses] at h
    cases h
  | none =>
    rw [hrefuses] at h
    exact Disk.create_spec (ok_of_mapError h)

lemma ne_of_created (h : Disk.Created d target j d') (hsource : d.find source = .ok i)
    (hother : d.find target ≠ .ok i) : i ≠ j := by
  rintro rfl
  rcases h.known with hknown | hnew
  · exact hother hknown
  · exact absurd hnew (Nat.ne_of_lt (Disk.find_lt hsource))

lemma copyFileContents_spec (hsource : r.disk.find source = .ok i) (hother : r.disk.find target ≠ .ok i)
    (hdestined : ∀ k, target.getLast? ≠ some slash → r.disk.find target = .ok k →
      Destined r.disk dest [source] k)
    (hadded : ∀ k name, target.getLast? ≠ some slash → r.disk.Names target k name →
      r.disk.Names dest k name ∨ Within r.disk dest [source] k name)
    (htargets : ∀ bytes, r.disk.node i = .file bytes → Targets r.disk dest source target) :
    CopySpec w k source dest r (copyFileContents w k source target r) := by
  rw [copyFileContents]
  cases hin : openInput w k r.disk source with
  | error reason => exact copySpec_complain _
  | ok i' =>
    have hi : i' = i := Except.ok.inj ((find_of_openInput hin).symm.trans hsource)
    subst hi
    simp only
    cases hout : openOutput w k r.disk target with
    | error reason => exact copySpec_complain _
    | ok created =>
      obtain ⟨j, disk⟩ := created
      have hcreated := created_of_openOutput hout
      have hij := ne_of_created hcreated hsource hother
      simp only
      obtain ⟨hspares, hfind⟩ := spares_put hcreated (copyBytes w k (disk.node i')).out
      obtain ⟨hend, hatEnd, hendComplains⟩ := copyEnd_spec (w := w) source target
        (copyBytes w k (disk.node i')).ending
        { r with disk := disk.put j (copyBytes w k (disk.node i')).out }
      generalize copyEnd w source target (copyBytes w k (disk.node i')).ending
        { r with disk := disk.put j (copyBytes w k (disk.node i')).out } = ended
        at hend hatEnd hendComplains
      obtain ⟨status, r₁⟩ := ended
      obtain ⟨hclose, hstatus, hcloseComplains⟩ := closeBoth_spec (w := w) k target status r₁
      simp only
      generalize closeBoth w k target status r₁ = done at hclose hstatus hcloseComplains
      have hdisk : done.2.disk = disk.put j (copyBytes w k (disk.node i')).out :=
        hclose.disk_eq.trans hend.disk_eq
      refine ⟨?_, hend.grows.trans hclose.grows, fun h => ?_, fun h => ?_, fun _ hcloses herr => ?_⟩
      · rw [hdisk]
        refine ⟨hspares.grows, fun k hk hne => hdestined k hcreated.plain ?_,
          fun k name hne => hadded k name hcreated.plain (hspares.added k name hne)⟩
        refine hspares.grows.find_back hk ?_
        by_contra hother
        exact hne (hspares.others k hk hother)
      · exact (hclose.silent h).trans (hend.silent (hstatus h))
      · have hfile := copyBytes_atEnd (hatEnd (hstatus h))
        have hold := (hcreated.others i' (Disk.find_lt hsource) hij).symm.trans hfile
        rw [hdisk]
        exact ⟨target, htargets _ hold,
          ⟨i', j, _, hsource, hold, hfind, hij.symm, Disk.put_node_self⟩, hspares⟩
      · have hback : r₁.err <+: r.err := herr ▸ hclose.grows
        have hsame : r₁.err = r.err := antisymm hback hend.grows
        exact (hcloseComplains hcloses (herr.trans hsame.symm)).trans (hendComplains hsame)

lemma provided_resolveTarget (hprovides : ∀ n, w.provides n = true)
    (h : resolveTarget w d source dest multipleSources = .error text) : text ≠ [] := by
  have hjoin : ∀ base, joinPath w dest base ≠ .error text := by
    intro base he
    rw [joinPath, Move.joinPath, if_pos (hprovides _)] at he
    cases he
  have hdup : Move.strdup w.toWorld dest ≠ .error text := by
    intro he
    rw [Move.strdup, if_pos (hprovides _)] at he
    cases he
  rw [resolveTarget] at h
  cases hfind : d.find dest with
  | error e =>
    simp only [hfind] at h
    split_ifs at h
    · exact Except.error.inj h ▸ complaint_ne_nil _
    · exact Except.error.inj h ▸ complaint_ne_nil _
    · exact absurd h hdup
  | ok i =>
    simp only [hfind] at h
    split_ifs at h
    · exact absurd h (hjoin _)
    · exact Except.error.inj h ▸ complaint_ne_nil _
    · exact absurd h hdup

lemma copyOne_spec (k : ℕ) (source dest : Bytes) (multipleSources : Bool) (r : Run) :
    CopySpec w k source dest r (copyOne w k source dest multipleSources r) := by
  rw [copyOne]
  cases hsource : r.disk.find source with
  | error e => exact copySpec_complain _
  | ok i =>
    simp only
    cases htarget : resolveTarget w r.disk source dest multipleSources with
    | error text =>
      refine ⟨.refl _ _ _, List.prefix_append _ _, fun h => absurd h (Nat.succ_ne_zero 0),
        fun h => absurd h (Nat.succ_ne_zero 0), fun hprovides _ herr => ?_⟩
      exact absurd (List.append_right_eq_self.mp herr) (provided_resolveTarget hprovides htarget)
    | ok target =>
      simp only
      split_ifs with hsame
      · exact copySpec_complain _
      · have hpath := (Disk.find_eq hsource).1
        exact copyFileContents_spec hsource hsame
          (fun _ hplain hfind => destined_of_resolveTarget htarget hpath hplain hfind)
          (fun _ _ hplain hnames => added_of_resolveTarget htarget hpath hplain hnames)
          fun _ hfile => targets_of_resolveTarget htarget hsource hfile

structure CopiesSpec (w : World) (dest : Bytes) (sources : List Bytes) (status : ℕ) (r : Run)
    (done : ℕ × Run) : Prop where
  confined : Confined r.disk dest sources done.2.disk
  grows : r.err <+: done.2.err
  silent : done.1 = 0 → status = 0 ∧ done.2.err = r.err
  copies : done.1 = 0 → Copies dest sources r.disk done.2.disk
  complains : (∀ n, w.provides n = true) → (∀ k, w.closesInput k = true) → done.2.err = r.err →
    status = 0 → done.1 = 0

lemma copyAll_spec (dest : Bytes) (multipleSources : Bool) (k : ℕ) (sources : List Bytes) (status : ℕ)
    (r : Run) :
    CopiesSpec w dest sources status r (copyAll w dest multipleSources k sources status r) := by
  induction sources generalizing k status r with
  | nil => exact ⟨.refl _ _ _, List.prefix_rfl, fun h => ⟨h, rfl⟩, fun _ => .nil _, fun _ _ _ h => h⟩
  | cons source sources ih =>
    have hone := copyOne_spec (w := w) k source dest multipleSources r
    rw [copyAll]
    generalize copyOne w k source dest multipleSources r = done at hone ⊢
    obtain ⟨failed, r₁⟩ := done
    have hrest := ih (k + 1) (if failed ≠ 0 then 1 else status) r₁
    simp only
    generalize copyAll w dest multipleSources (k + 1) sources (if failed ≠ 0 then 1 else status) r₁ =
      done at hrest ⊢
    have hzero : done.1 = 0 → failed = 0 ∧ status = 0 := by
      intro h
      have hstatus := (hrest.silent h).1
      split_ifs at hstatus with hfailed
      exact ⟨not_not.mp hfailed, hstatus⟩
    refine ⟨(hone.confined.mono (by simp)).trans (hrest.confined.mono (by simp)),
      hone.grows.trans hrest.grows, fun h => ?_, fun h => ?_,
      fun hprovides hcloses herr hstatus => ?_⟩
    · obtain ⟨hfailed, hstatus⟩ := hzero h
      exact ⟨hstatus, (hrest.silent h).2.trans (hone.silent hfailed)⟩
    · obtain ⟨target, htargets, hcopied, hspares⟩ := hone.copies (hzero h).1
      exact .cons htargets hcopied hspares (hrest.copies h)
    · have hback : r₁.err <+: r.err := herr ▸ hrest.grows
      have hsame : r₁.err = r.err := antisymm hback hone.grows
      have hfailed : failed = 0 := hone.complains hprovides (hcloses k) hsame
      apply hrest.complains hprovides hcloses (herr.trans hsame.symm)
      rw [if_neg (not_not.mpr hfailed)]
      exact hstatus

lemma main_eq (program source other : Bytes) (rest : List Bytes) (r : Run) :
    let args := source :: other :: rest
    let done := copyAll w (args.getLastD []) (args.length > 2) 0 args.dropLast 0 r
    main w (program :: args) r = (if done.1 = 0 then 0 else 1, done.2) := rfl

theorem cp_copies (w : World) (program : Bytes) (args : List Bytes) (d : Disk) :
    Confined d (args.getLastD []) args.dropLast (main w (program :: args) ⟨d, []⟩).2.disk ∧
      ((main w (program :: args) ⟨d, []⟩).1 = 0 →
        (main w (program :: args) ⟨d, []⟩).2.err = [] ∧ 2 ≤ args.length ∧
          Copies (args.getLastD []) args.dropLast d (main w (program :: args) ⟨d, []⟩).2.disk) ∧
      ((∀ n, w.provides n = true) → (∀ k, w.closesInput k = true) →
        (main w (program :: args) ⟨d, []⟩).2.err = [] → (main w (program :: args) ⟨d, []⟩).1 = 0) := by
  cases args with
  | nil =>
    exact ⟨.refl d _ _, fun h => absurd h (Nat.succ_ne_zero 0), fun _ _ h => absurd h (complain_ne _ _)⟩
  | cons source args =>
    cases args with
    | nil =>
      exact ⟨.refl d _ _, fun h => absurd h (Nat.succ_ne_zero 0), fun _ _ h => absurd h (complain_ne _ _)⟩
    | cons other rest =>
      have hall := copyAll_spec (w := w) ((source :: other :: rest).getLastD [])
        ((source :: other :: rest).length > 2) 0 (source :: other :: rest).dropLast 0 ⟨d, []⟩
      rw [main_eq]
      generalize copyAll w ((source :: other :: rest).getLastD [])
        ((source :: other :: rest).length > 2) 0 (source :: other :: rest).dropLast 0 ⟨d, []⟩ = done
        at hall ⊢
      have hzero : (if done.1 = 0 then 0 else 1) = 0 ↔ done.1 = 0 := by
        split_ifs with h
        · exact iff_of_true rfl h
        · exact ⟨False.elim, fun hzero => absurd hzero h⟩
      simp only [hzero]
      refine ⟨hall.confined, fun h => ⟨(hall.silent h).2, ?_, hall.copies h⟩,
        fun hprovides hcloses herr => ?_⟩
      · exact Nat.le_add_left 2 rest.length
      · exact hall.complains hprovides hcloses herr rfl

def tree : Disk where
  root := 0
  here := 0
  next := 5
  entry i name :=
    if i = 0 ∧ name = ascii "x" then some 1
    else if i = 0 ∧ name = ascii "d" then some 2
    else if i = 2 ∧ name = ascii "x" then some 3
    else if i = 0 ∧ name = ascii "y" then some 4
    else none
  node i := if i = 1 then .file (ascii "new") else if i = 3 ∨ i = 4 then .file (ascii "old") else .directory
  root_lt := by decide
  here_lt := by decide
  entry_lt i name j h := by
    split_ifs at h <;> cases h <;> decide

def willing : World where
  provides _ := true
  fits _ := true
  reason := []
  strerror _ := []
  refusesInput _ := none
  refusesOutput _ := none
  reads _ := [.upTo 2]
  writes _ := [.upTo 1, .upTo 0]
  closesInput _ := true
  closesOutput _ := true

theorem cp_copies_into_directory :
    let done := main willing [ascii "pa2_cp", ascii "x", ascii "d"] ⟨tree, []⟩
    done.1 = 0 ∧ Copies (ascii "d") [ascii "x"] tree done.2.disk ∧
      done.2.disk.node 3 = .file (ascii "new") ∧ done.2.disk.node 4 = tree.node 4 := by
  intro done
  obtain ⟨hconfined, hcopies, hsilent⟩ := cp_copies willing (ascii "pa2_cp") [ascii "x", ascii "d"] tree
  have hzero : done.1 = 0 := hsilent (fun _ => rfl) (fun _ => rfl) (by decide +kernel)
  refine ⟨hzero, (hcopies hzero).2.2, by decide +kernel, ?_⟩
  by_contra hne
  have hfind : tree.find (ascii "d") = .ok 2 := rfl
  rcases hconfined.destined 4 (by decide) hne with h | ⟨i, name, ⟨h, -, -⟩, he⟩
  · cases hfind.symm.trans h
  · obtain rfl : 2 = i := Except.ok.inj (hfind.symm.trans h)
    simp [tree] at he

end SystemsLab.Executables.Copy
