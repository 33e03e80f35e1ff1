import IsaTable.CommandLine.Run
import IsaTable.Proofs.Text.LineEnds

/-! # Extensions and endings

    The extension of a path is found by taking the path apart, its ending can be
    read off its text.  They are compared by way of the **file name**, which is
    what stands behind the last slash:

    * **A path that names a file** at its end has this file name as its last name
      (`Path.lastName?_eq`), whatever stands before it.
    * **An ending without a slash** is an ending of the path exactly if it is one
      of the file name (`Path.suffix_fileName_iff`).

    So the extension is `json` exactly if the path ends in `.json` and there is
    more to the file name than that (`isJsonPath_iff`).
-/

namespace IsaTable.CommandLine

namespace Path

/-! ## §1. The file name -/

/-- What stands behind the last slash of a path. -/
def fileName (path : List Char) : List Char :=
  path.rtakeWhile (· ≠ '/')

theorem slash_not_mem_fileName (path : List Char) : '/' ∉ fileName path := by
  intro hmem
  simpa using List.mem_rtakeWhile_imp hmem

theorem fileName_suffix (path : List Char) : fileName path <:+ path :=
  List.rtakeWhile_suffix _ path

/-- Nothing in front of a slash matters. -/
theorem fileName_append_slash (front name : List Char) :
    fileName (front ++ '/' :: name) = fileName name :=
  Text.rtakeWhile_append_cons_of_neg (by decide) front name

/-- A path is its file name, alone or behind a slash. -/
theorem eq_fileName_or_exists_slash (path : List Char) :
    path = fileName path ∨ ∃ front, path = front ++ '/' :: fileName path := by
  have hcut : path.rdropWhile (· ≠ '/') ++ fileName path = path :=
    List.rdropWhile_append_rtakeWhile
  by_cases hne : path.rdropWhile (· ≠ '/') = []
  · rw [hne, List.nil_append] at hcut
    exact .inl hcut.symm
  · have hlast := List.rdropWhile_last_not (· ≠ '/') path hne
    have hslash : (path.rdropWhile (· ≠ '/')).getLast? = some '/' := by
      rw [List.getLast?_eq_some_getLast hne]
      simpa using hlast
    obtain ⟨front, hfront⟩ := List.getLast?_eq_some_iff.1 hslash
    right
    refine ⟨front, ?_⟩
    rw [List.append_cons, ← hfront, hcut]

/-- The file name is the last of the names. -/
theorem getLast?_parts (path : List Char) : (parts path).getLast? = some (fileName path) := by
  have hname : parts (fileName path) = [fileName path] :=
    List.splitOn_eq_singleton (slash_not_mem_fileName path)
  rcases eq_fileName_or_exists_slash path with hpath | ⟨front, hpath⟩
  · have hparts : parts path = [fileName path] := by
      conv_lhs => rw [hpath]
      exact hname
    rw [hparts, List.getLast?_singleton]
  · have hparts : parts path = parts front ++ [fileName path] := by
      conv_lhs => rw [hpath]
      rw [parts, List.splitOn_append_cons_self]
      exact congrArg _ hname
    rw [hparts, List.getLast?_concat]

/-- **An ending without a slash** lies in the file name. -/
theorem suffix_fileName_iff {ending : List Char} (h : '/' ∉ ending) (path : List Char) :
    ending <:+ fileName path ↔ ending <:+ path := by
  constructor
  · intro hname
    exact hname.trans (fileName_suffix path)
  · intro hpath
    obtain ⟨front, rfl⟩ := hpath
    have hall : ∀ c ∈ ending, decide (c ≠ '/') = true := by
      intro c hc
      exact decide_eq_true fun heq => h (heq ▸ hc)
    rw [fileName, Text.rtakeWhile_append_of_pos hall]
    exact List.suffix_append _ _

/-! ## §2. The last name -/

/-- The lead of a path is not in its file name, unless that is a dot alone. -/
theorem fileName_drop_leadLength {path : List Char} (h : isIdle (fileName path) = false) :
    fileName (path.drop (leadLength path)) = fileName path := by
  unfold leadLength
  split
  · next rest => exact (fileName_append_slash [] rest).symm
  · contradiction
  · next rest =>
    exact (fileName_append_slash [] rest).trans (fileName_append_slash ['.'] rest).symm
  · rfl

/-- A last name that is not idle is kept. -/
theorem getLast?_dropIdleEnd {names : List (List Char)} {name : List Char}
    (h : names.getLast? = some name) (hname : isIdle name = false) :
    (dropIdleEnd names).getLast? = some name := by
  obtain ⟨front, rfl⟩ := List.getLast?_eq_some_iff.1 h
  rw [dropIdleEnd, List.reverse_concat, List.dropWhile_cons_of_neg (by simp [hname]),
    List.reverse_cons, List.getLast?_concat]

/-- **A path that names a file** has its file name as its last name. -/
theorem lastName?_eq {path : List Char} (h : isIdle (fileName path) = false) :
    lastName? path = some (fileName path) := by
  refine getLast?_dropIdleEnd ?_ h
  rw [getLast?_parts, fileName_drop_leadLength h]

/-! ## §3. The extension -/

/-- A name is cut at its last dot, which must not begin it. -/
theorem nameExtension?_eq_some_iff {name extension : List Char} :
    nameExtension? name = some extension ↔
      name ≠ ['.', '.'] ∧ '.' ∉ extension ∧
        ∃ stem, stem ≠ [] ∧ name = stem ++ '.' :: extension := by
  -- Seen from its end, the name is its extension, the dot and the stem.
  have hcut : name.reverse.takeWhile (· != '.') ++ name.reverse.dropWhile (· != '.') =
      name.reverse := List.takeWhile_append_dropWhile
  constructor
  · intro h
    rw [nameExtension?, Option.ite_none_left_eq_some] at h
    obtain ⟨hdots, h⟩ := h
    refine ⟨hdots, ?_⟩
    dsimp only at h
    split at h
    · contradiction
    · contradiction
    · next dot last rest hrest =>
      have hdot := List.head?_dropWhile_not (· != '.') name.reverse
      rw [hrest] at hdot
      obtain rfl : dot = '.' := by simpa using hdot
      obtain rfl := Option.some.inj h
      refine ⟨?_, (last :: rest).reverse, by simp, ?_⟩
      · intro hmem
        simpa using List.mem_takeWhile_imp (List.mem_reverse.1 hmem)
      · rw [hrest] at hcut
        calc name = (name.reverse.takeWhile (· != '.') ++ '.' :: last :: rest).reverse := by
              rw [hcut, List.reverse_reverse]
          _ = (last :: rest).reverse ++ '.' :: (name.reverse.takeWhile (· != '.')).reverse := by
              rw [List.reverse_append, List.reverse_cons, List.append_assoc, List.singleton_append]
  · intro h
    obtain ⟨hdots, hnodot, stem, hstem, rfl⟩ := h
    have hall : ∀ c ∈ extension.reverse, (c != '.') = true := by
      intro c hc
      rw [bne_iff_ne]
      intro heq
      exact hnodot (heq ▸ List.mem_reverse.1 hc)
    have hreverse : (stem ++ '.' :: extension).reverse =
        extension.reverse ++ '.' :: stem.reverse := by simp
    rw [nameExtension?, if_neg hdots, hreverse]
    simp only [List.takeWhile_append_of_pos hall, List.dropWhile_append_of_pos hall]
    obtain ⟨last, rest, hlast⟩ :=
      List.exists_cons_of_ne_nil (mt List.reverse_eq_nil_iff.1 hstem)
    rw [hlast]
    simp

/-- The extension of a path that names a file is that of its file name. -/
theorem extension?_eq {path : List Char} (h : isIdle (fileName path) = false) :
    extension? path = nameExtension? (fileName path) := by
  rw [extension?, lastName?_eq h, Option.bind_some]

end Path

/-- What the path of a JSON table ends in. -/
def jsonEnding : List Char :=
  ['.', 'j', 's', 'o', 'n']

/-- **The extension and the ending agree**, except on a file whose whole name is
    the ending. -/
theorem isJsonPath_iff {path : String} (h : Path.isIdle (Path.fileName path.toList) = false) :
    isJsonPath path = true ↔
      jsonEnding <:+ path.toList ∧ Path.fileName path.toList ≠ jsonEnding := by
  rw [isJsonPath, beq_iff_eq, Path.extension?_eq h, Path.nameExtension?_eq_some_iff,
    ← Path.suffix_fileName_iff (by decide)]
  constructor
  · intro hname
    obtain ⟨-, -, stem, hstem, hname⟩ := hname
    refine ⟨⟨stem, hname.symm⟩, ?_⟩
    intro heq
    rw [hname] at heq
    exact hstem (List.append_left_eq_self.1 heq)
  · intro hending
    obtain ⟨⟨stem, hname⟩, hne⟩ := hending
    refine ⟨?_, by decide, stem, ?_, hname.symm⟩
    · intro heq
      have hlast := congrArg List.getLast? (hname.trans heq)
      rw [jsonEnding, List.getLast?_append] at hlast
      exact nomatch hlast
    · rintro rfl
      exact hne hname.symm

end IsaTable.CommandLine
