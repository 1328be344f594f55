import SystemsLab.CLib.Paths
import SystemsLab.Executables.HeadTail
import Mathlib.Data.List.Induction

namespace SystemsLab.Executables.Move

open CLib

/-- What `stat` tells: whether it fails with `ENOTDIR`, or whether it finds a directory. -/
inductive StatAnswer
  | failed (notDir : Bool)
  | found (isDir : Bool)
deriving DecidableEq

def pa2Basename (path : Bytes) : Bytes :=
  match strrchr path slash with
  | some p => p.drop 1
  | none => path

def endsWithSlash (path : Bytes) : Bool :=
  decide (path.length > 0) && path[path.length - 1]? == some slash

def cannotStat (dest : Bytes) : Bytes :=
  ascii "pa2_mv: cannot stat '" ++ dest ++ ascii "': Not a directory" ++ [newline]

def cannotMove (source dest : Bytes) : Bytes :=
  ascii "pa2_mv: cannot move '" ++ pa2Basename source ++ ascii "' to '" ++ dest ++
    ascii "': Not a directory" ++ [newline]

section Targets

variable (w : World) (stat : Bytes → StatAnswer)

def joinPath (dir base : Bytes) : Except Bytes Bytes :=
  let needSlash := decide (dir.length > 0) && dir[dir.length - 1]? != some slash
  if w.provides (dir.length + needSlash.toNat + base.length + 1) then
    .ok (dir ++ (if needSlash then [slash] else []) ++ base)
  else .error (ascii "pa2_mv: " ++ w.reason ++ [newline])

def strdup (s : Bytes) : Except Bytes Bytes :=
  if w.provides (s.length + 1) then .ok s else .error []

def resolveTarget (source dest : Bytes) (multipleSources : Bool) : Except Bytes Bytes :=
  match stat dest with
  | .failed notDir =>
    if notDir then .error (cannotStat dest)
    else if multipleSources || endsWithSlash dest then .error (cannotMove source dest)
    else strdup w dest
  | .found isDir =>
    if isDir then joinPath w dest (pa2Basename source)
    else if multipleSources || endsWithSlash dest then .error (cannotStat dest)
    else strdup w dest

end Targets

variable {w : World} {stat : Bytes → StatAnswer} {source dest target path dir base : Bytes}
  {multipleSources : Bool}

lemma endsWithSlash_iff : endsWithSlash path = true ↔ ∃ dir, path = dir ++ [slash] := by
  induction path using List.reverseRecOn with
  | nil => simp [endsWithSlash]
  | append_singleton path c =>
    rw [endsWithSlash]
    simp

lemma pa2Basename_no_slash (h : slash ∉ path) : pa2Basename path = path := by
  rw [pa2Basename]
  cases hlast : strrchr path slash with
  | none => rfl
  | some p =>
    obtain ⟨front, back, rfl, -, -⟩ := strrchr_split hlast
    simp at h

lemma pa2Basename_split (h : slash ∈ path) :
    ∃ dir, path = dir ++ slash :: pa2Basename path ∧ slash ∉ pa2Basename path := by
  rw [pa2Basename]
  cases hlast : strrchr path slash with
  | none => exact absurd h (not_mem_of_strrchr hlast)
  | some p =>
    obtain ⟨front, back, rfl, rfl, hback⟩ := strrchr_split hlast
    exact ⟨front, rfl, hback⟩

lemma slash_not_mem_pa2Basename (path : Bytes) : slash ∉ pa2Basename path := by
  by_cases h : slash ∈ path
  · obtain ⟨dir, -, hbase⟩ := pa2Basename_split h
    exact hbase
  · rwa [pa2Basename_no_slash h]

lemma pa2Basename_eq_nil_iff (hpath : path ≠ []) :
    pa2Basename path = [] ↔ endsWithSlash path = true := by
  rw [endsWithSlash_iff]
  by_cases h : slash ∈ path
  · obtain ⟨dir, hsplit, hbase⟩ := pa2Basename_split h
    constructor
    · intro hnil
      rw [hnil] at hsplit
      exact ⟨dir, hsplit⟩
    · rintro ⟨front, hfront⟩
      cases hname : pa2Basename path using List.reverseRecOn with
      | nil => rfl
      | append_singleton name c =>
        rw [hname] at hsplit hbase
        have hends : (dir ++ slash :: name) ++ [c] = front ++ [slash] := by
          rw [← hfront, hsplit, List.append_assoc, List.cons_append]
        have hlast := List.singleton_inj.mp (List.append_inj' hends rfl).2
        rw [hlast] at hbase
        exact absurd (List.mem_append_right name (List.mem_singleton_self slash)) hbase
  · rw [pa2Basename_no_slash h]
    constructor
    · exact fun hnil => absurd hnil hpath
    · rintro ⟨front, rfl⟩
      simp at h

lemma getLast_components (hname : pa2Basename path ≠ []) :
    (components path).getLast? = some (pa2Basename path) := by
  have hone := components_name (slash_not_mem_pa2Basename path) hname
  by_cases h : slash ∈ path
  · obtain ⟨dir, hsplit, -⟩ := pa2Basename_split h
    conv_lhs => rw [hsplit]
    rw [components_append, hone, List.getLast?_append_of_ne_nil]
    · rfl
    · exact List.cons_ne_nil _ _
  · rw [pa2Basename_no_slash h] at hone ⊢
    rw [hone]
    rfl

lemma components_joinPath (h : joinPath w dir base = .ok target) :
    components target = components dir ++ components base := by
  rw [joinPath] at h
  split_ifs at h with hroom hneed
  · rw [← Except.ok.inj h, List.append_assoc, List.singleton_append, components_append]
  · rw [← Except.ok.inj h, List.append_nil]
    have hjoined : dir = [] ∨ endsWithSlash dir = true := by
      by_cases hdir : dir = []
      · exact Or.inl hdir
      · right
        simpa [endsWithSlash, List.length_pos_iff.mpr hdir] using hneed
    rcases hjoined with rfl | hends
    · rfl
    · obtain ⟨front, rfl⟩ := endsWithSlash_iff.mp hends
      rw [List.append_assoc, List.singleton_append, components_append, components_concat]

def EntryUnder (dest source target : Bytes) : Prop :=
  ∃ name, (components source).getLast? = some name ∧ components target = components dest ++ [name]

lemma resolveTarget_directory (hdest : stat dest = .found true) :
    resolveTarget w stat source dest multipleSources = joinPath w dest (pa2Basename source) := by
  rw [resolveTarget, hdest]
  exact if_pos rfl

lemma components_resolveTarget (hdest : stat dest = .found true)
    (htarget : resolveTarget w stat source dest multipleSources = .ok target) :
    components target = components dest ++ components (pa2Basename source) := by
  rw [resolveTarget_directory hdest] at htarget
  exact components_joinPath htarget

lemma entryUnder_of_name (hdest : stat dest = .found true) (hname : pa2Basename source ≠ [])
    (htarget : resolveTarget w stat source dest multipleSources = .ok target) :
    EntryUnder dest source target := by
  refine ⟨pa2Basename source, getLast_components hname, ?_⟩
  rw [components_resolveTarget hdest htarget, components_name (slash_not_mem_pa2Basename source) hname]

lemma components_of_no_name (hdest : stat dest = .found true) (hname : pa2Basename source = [])
    (htarget : resolveTarget w stat source dest multipleSources = .ok target) :
    components target = components dest := by
  rw [components_resolveTarget hdest htarget, hname, components_nil, List.append_nil]

lemma EntryUnder.ne (h : EntryUnder dest source target) : components target ≠ components dest := by
  obtain ⟨name, -, htarget⟩ := h
  rw [htarget]
  simp

lemma EntryUnder.injective {other otherTarget : Bytes} (h : EntryUnder dest source target)
    (hother : EntryUnder dest other otherTarget)
    (hnames : (components source).getLast? ≠ (components other).getLast?) : target ≠ otherTarget := by
  rintro rfl
  obtain ⟨name, hname, htarget⟩ := h
  obtain ⟨otherName, hotherName, hotherTarget⟩ := hother
  have hsame := List.append_cancel_left (htarget.symm.trans hotherTarget)
  exact hnames (by rw [hname, hotherName, List.singleton_inj.mp hsame])

theorem moved_under_directory_iff (w : World) (stat : Bytes → StatAnswer) (source dest : Bytes)
    (multipleSources : Bool) (hsource : ∃ c ∈ source, c ≠ slash) (hdest : stat dest = .found true) :
    ((∀ n, w.provides n = true) →
      ∃ target, resolveTarget w stat source dest multipleSources = .ok target) ∧
    (∀ target, resolveTarget w stat source dest multipleSources = .ok target →
      (EntryUnder dest source target ↔ endsWithSlash source = false) ∧
      (components target ≠ components dest ↔ endsWithSlash source = false) ∧
      ∀ other otherMultiple otherTarget, (∃ c ∈ other, c ≠ slash) →
        resolveTarget w stat other dest otherMultiple = .ok otherTarget →
        endsWithSlash source = false → endsWithSlash other = false →
        (components source).getLast? ≠ (components other).getLast? → target ≠ otherTarget) := by
  have hname : ∀ {path : Bytes}, (∃ c ∈ path, c ≠ slash) → endsWithSlash path = false →
      pa2Basename path ≠ [] := by
    rintro path ⟨c, hc, -⟩ hends hnil
    rw [pa2Basename_eq_nil_iff (List.ne_nil_of_mem hc), hends] at hnil
    exact Bool.false_ne_true hnil
  have hnone : endsWithSlash source = true → pa2Basename source = [] := by
    obtain ⟨c, hc, -⟩ := hsource
    exact (pa2Basename_eq_nil_iff (List.ne_nil_of_mem hc)).mpr
  refine ⟨fun hprovides => ?_, fun target htarget => ?_⟩
  · rw [resolveTarget_directory hdest, joinPath]
    exact ⟨_, if_pos (hprovides _)⟩
  have hentry : endsWithSlash source = false → EntryUnder dest source target := fun hends =>
    entryUnder_of_name hdest (hname hsource hends) htarget
  have hsame : endsWithSlash source = true → components target = components dest := fun hends =>
    components_of_no_name hdest (hnone hends) htarget
  refine ⟨⟨fun h => ?_, hentry⟩, ⟨fun h => ?_, fun hends => (hentry hends).ne⟩, ?_⟩
  · exact Bool.eq_false_of_not_eq_true fun hends => h.ne (hsame hends)
  · exact Bool.eq_false_of_not_eq_true fun hends => h (hsame hends)
  · intro other otherMultiple otherTarget hother hotherTarget hends hotherEnds hnames
    exact (hentry hends).injective
      (entryUnder_of_name hdest (hname hother hotherEnds) hotherTarget) hnames

def twoDirectories (path : Bytes) : StatAnswer :=
  if components path = [ascii "foo"] ∨ components path = [ascii "bar"] then .found true
  else .failed false

theorem moved_under_directory_nested :
    ∃ target, resolveTarget ⟨fun _ => true, fun _ => true, []⟩ twoDirectories (ascii "//foo")
        (ascii "bar//") false = .ok target ∧
      EntryUnder (ascii "bar//") (ascii "//foo") target := by
  obtain ⟨hok, hall⟩ := moved_under_directory_iff ⟨fun _ => true, fun _ => true, []⟩ twoDirectories
    (ascii "//foo") (ascii "bar//") false ⟨102, by decide, by decide⟩ (by decide)
  obtain ⟨target, htarget⟩ := hok fun _ => rfl
  exact ⟨target, htarget, (hall target htarget).1.mpr (by decide)⟩

theorem trailing_slash_replaces_directory :
    ∃ target, twoDirectories (ascii "foo/") = .found true ∧
      twoDirectories (ascii "bar") = .found true ∧
      resolveTarget ⟨fun _ => true, fun _ => true, []⟩ twoDirectories (ascii "foo/") (ascii "bar")
        false = .ok target ∧
      ¬ EntryUnder (ascii "bar") (ascii "foo/") target ∧
      components target = components (ascii "bar") := by
  have hcomponents : components (ascii "bar/") = components (ascii "bar") := by decide
  refine ⟨ascii "bar/", by decide, by decide, by rfl, ?_, hcomponents⟩
  rintro ⟨name, -, htarget⟩
  rw [hcomponents] at htarget
  simp at htarget

end SystemsLab.Executables.Move
