import IsaTable.CommandLine.Run
import IsaTable.Proofs.CommandLine.Resolving

/-! # What a disk promises

    The stages of a run are written over any disk.  What they rely on is
    `Disk.Lawful`: reading changes nothing, a temporary file is fresh and is
    changed by nothing but writing to it, and moving it over the output is a
    single change.  Every operation may fail, for whatever reason; only
    writing may leave something behind then, and only in the temporary file.

    File systems are compared place by place.  The disk of a file system is
    lawful (`FileSystem.lawful_disk`).
-/

namespace IsaTable.CommandLine

/-! ## §1. Changes -/

namespace FileSystem

/-- The second file system has the same at every place. -/
structure Same (fs fs' : FileSystem) : Prop where
  workingDirectory : fs'.workingDirectory = fs.workingDirectory
  node? : ∀ p, fs'.node? p = fs.node? p

/-- The second file system has the given node at a place, and the same at every
    other. -/
structure Updated (fs : FileSystem) (place : Location) (node : Option Node)
    (fs' : FileSystem) : Prop where
  workingDirectory : fs'.workingDirectory = fs.workingDirectory
  node? : ∀ p, fs'.node? p = if p = place then node else fs.node? p

namespace Updated

variable {fs fs₁ fs₂ : FileSystem} {place : Location} {node node' : Option Node}

/-- Of two updates of one place the second counts. -/
theorem trans (h : fs.Updated place node fs₁) (h' : fs₁.Updated place node' fs₂) :
    fs.Updated place node' fs₂ where
  workingDirectory := h'.workingDirectory.trans h.workingDirectory
  node? := by
    intro p
    rw [h'.node?, h.node?]
    split <;> rfl

end Updated

/-- Where a file is, there is no root. -/
theorem ne_root_of_file {fs : FileSystem} {place : Location} {content : ByteArray}
    (h : fs.node? place = some (.file content)) : place ≠ [] := by
  rintro rfl
  cases h

theorem updated_insert (fs : FileSystem) {place : Location} (h : place ≠ []) (node : Node) :
    fs.Updated place (some node) (fs.insert place node) where
  workingDirectory := rfl
  node? := by
    intro p
    by_cases hp : p = place
    · rw [if_pos hp, hp]
      exact node?_insert_self fs h node
    · rw [if_neg hp]
      exact node?_insert_of_ne fs hp node

theorem updated_erase (fs : FileSystem) {place : Location} (h : place ≠ []) :
    fs.Updated place none (fs.erase place) where
  workingDirectory := rfl
  node? := by
    intro p
    by_cases hp : p = place
    · rw [if_pos hp, hp]
      exact node?_erase_self fs h
    · rw [if_neg hp]
      exact node?_erase_of_ne fs hp

end FileSystem

/-! ## §2. The promises -/

/-- **A lawful disk.**  Each law is about one operation in any state; `after` is
    the state behind it. -/
structure Disk.Lawful (disk : Disk (StateM FileSystem) Location) : Prop where
  /-- Reading changes nothing. -/
  readText_same : ∀ {fs after : FileSystem} {path : String} {r : Except ReadError String},
    (disk.readText path).run fs = (r, after) → after = fs
  /-- A text that is read is there. -/
  readText_ok : ∀ {fs after : FileSystem} {path text : String},
    (disk.readText path).run fs = (.ok text, after) → fs.readText path = .ok text
  /-- Where no temporary file can be made, nothing changes. -/
  createTemp_error : ∀ {fs after : FileSystem} {directory : String} {e : OsError},
    (disk.createTemp directory).run fs = (.error e, after) → fs.Same after
  /-- A temporary file is put where nothing was. -/
  createTemp_ok : ∀ {fs after : FileSystem} {directory : String} {temp : Location},
    (disk.createTemp directory).run fs = (.ok temp, after) →
      fs.node? temp = none ∧ fs.Updated temp (some (.file .empty)) after
  /-- Writing changes nothing but the temporary file, which holds the whole text
      if all went well. -/
  writeText : ∀ {fs after : FileSystem} {temp : Location} {content : ByteArray} {text : String}
      {r : Except OsError Unit}, fs.node? temp = some (.file content) →
    (disk.writeText temp text).run fs = (r, after) →
      ∃ content', fs.Updated temp (some (.file content')) after ∧
        (r = .ok () → content' = text.toUTF8)
  /-- Where the temporary file cannot be moved, nothing changes. -/
  rename_error : ∀ {fs after : FileSystem} {temp : Location} {path : String} {e : OsError},
    (disk.rename temp path).run fs = (.error e, after) → fs.Same after
  /-- Moving the temporary file is one change: it is at its new place, which is
      no directory, and nothing is at its old one. -/
  rename_ok : ∀ {fs after : FileSystem} {temp : Location} {content : ByteArray} {path : String},
    fs.node? temp = some (.file content) → (disk.rename temp path).run fs = (.ok (), after) →
      ∃ place, fs.resolveTarget path = .ok place ∧ fs.node? place ≠ some .directory ∧
        after.workingDirectory = fs.workingDirectory ∧
        ∀ p, after.node? p =
          if p = place then some (.file content) else if p = temp then none else fs.node? p
  /-- A temporary file can be taken away. -/
  remove : ∀ {fs after : FileSystem} {temp : Location} {content : ByteArray},
    fs.node? temp = some (.file content) → (disk.remove temp).run fs = ((), after) →
      fs.Updated temp none after

/-! ## §3. The disk of a file system -/

namespace FileSystem

theorem same_refl (fs : FileSystem) : fs.Same fs :=
  ⟨rfl, fun _ => rfl⟩

/-- A temporary file is put at a fresh name. -/
theorem createTemp_eq_ok {fs after : FileSystem} {directory : String} {temp : Location}
    (h : fs.createTemp directory = .ok (temp, after)) :
    fs.node? temp = none ∧ fs.Updated temp (some (.file .empty)) after := by
  unfold createTemp at h
  split at h
  · contradiction
  · split at h
    · contradiction
    · next place _ =>
      obtain ⟨rfl, rfl⟩ := Prod.mk.inj (Except.ok.inj h)
      exact ⟨node?_freshName fs place,
        updated_insert fs (List.append_ne_nil_of_right_ne_nil _ (List.cons_ne_nil _ _)) _⟩

/-- A file is moved to where its new path leads. -/
theorem rename_eq_ok {fs after : FileSystem} {source : Location} {path : String}
    {content : ByteArray} (hsource : fs.node? source = some (.file content))
    (h : fs.rename source path = .ok after) :
    ∃ place, fs.resolveTarget path = .ok place ∧ fs.node? place ≠ some .directory ∧
      after.workingDirectory = fs.workingDirectory ∧
      ∀ p, after.node? p =
        if p = place then some (.file content) else if p = source then none else fs.node? p := by
  unfold rename at h
  split at h
  · contradiction
  · next place hplace =>
    split at h
    · contradiction
    · contradiction
    · next node hnode hdirectory =>
      obtain rfl := Except.ok.inj h
      obtain rfl : node = .file content := Option.some.inj (hnode.symm.trans hsource)
      have hroot : place ≠ [] := by
        rintro rfl
        exact hdirectory rfl
      have herase := updated_erase fs (ne_root_of_file hsource)
      have hinsert := updated_insert (fs.erase source) hroot (.file content)
      refine ⟨place, hplace, hdirectory, rfl, ?_⟩
      intro p
      rw [hinsert.node?, herase.node?]

theorem run_createTemp (fs : FileSystem) (directory : String) :
    (disk.createTemp directory).run fs =
      match fs.createTemp directory with
      | .error e => (.error e, fs)
      | .ok (temp, after) => (.ok temp, after) := by
  show StateT.run (bind get _) fs = _
  rw [StateT.run_bind]
  show StateT.run (match fs.createTemp directory with | .error e => _ | .ok (temp, fs) => _) fs = _
  cases fs.createTemp directory <;> rfl

theorem run_rename (fs : FileSystem) (temp : Location) (path : String) :
    (disk.rename temp path).run fs =
      match fs.rename temp path with
      | .error e => (.error e, fs)
      | .ok after => (.ok (), after) := by
  show StateT.run (bind get _) fs = _
  rw [StateT.run_bind]
  show StateT.run (match fs.rename temp path with | .error e => _ | .ok fs => _) fs = _
  cases fs.rename temp path <;> rfl

/-- **The disk of a file system is lawful.** -/
theorem lawful_disk : disk.Lawful where
  readText_same := by
    intro fs after path r h
    exact (Prod.mk.inj h).2.symm
  readText_ok := by
    intro fs after path text h
    exact (Prod.mk.inj h).1
  createTemp_error := by
    intro fs after directory e h
    rw [run_createTemp] at h
    split at h
    · rw [← (Prod.mk.inj h).2]
      exact same_refl fs
    · cases h
  createTemp_ok := by
    intro fs after directory temp h
    rw [run_createTemp] at h
    split at h
    · cases h
    · next htemp =>
      obtain ⟨htemp', rfl⟩ := Prod.mk.inj h
      obtain rfl := Except.ok.inj htemp'
      exact createTemp_eq_ok htemp
  writeText := by
    intro fs after temp content text r hfile h
    obtain ⟨rfl, rfl⟩ := Prod.mk.inj h
    exact ⟨_, updated_insert fs (ne_root_of_file hfile) _, fun _ => rfl⟩
  rename_error := by
    intro fs after temp path e h
    rw [run_rename] at h
    split at h
    · rw [← (Prod.mk.inj h).2]
      exact same_refl fs
    · cases h
  rename_ok := by
    intro fs after temp content path hfile h
    rw [run_rename] at h
    split at h
    · cases h
    · next hrename =>
      obtain rfl := (Prod.mk.inj h).2
      exact rename_eq_ok hfile hrename
  remove := by
    intro fs after temp content hfile h
    obtain rfl := (Prod.mk.inj h).2
    exact updated_erase fs (ne_root_of_file hfile)

end FileSystem

end IsaTable.CommandLine
