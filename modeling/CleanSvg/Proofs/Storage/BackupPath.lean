import CleanSvg.Proofs.Storage.ChangedFile

/-!
# Where the backup of a file goes

The path of a backup has the directory of the file and a name of its own, and
from one directory two names lead to one file only if they are the same.  So a
backup goes to another file, unless the name of the file has the extension of
backups already.
-/

namespace CleanSvg

namespace Path

variable {path name : Text}

/-- What stands before the last name of a path: nothing, or names and a slash after each. -/
def EndsWithSlash (front : Text) : Prop :=
  front = [] ∨ ∃ directory, front = directory ++ ['/']

theorem split_lastName (path : Text) :
    (path.reverse.dropWhile (· != '/')).reverse ++ lastName path = path := by
  rw [lastName, ← List.reverse_append, List.takeWhile_append_dropWhile, List.reverse_reverse]

theorem beforeLastName_eq (path : Text) :
    beforeLastName path = (path.reverse.dropWhile (· != '/')).reverse := by
  have lengths := congrArg List.length (split_lastName path)
  rw [List.length_append] at lengths
  have before : path.length - (lastName path).length =
      (path.reverse.dropWhile (· != '/')).reverse.length := by omega
  rw [beforeLastName, before]
  conv => lhs; arg 2; rw [← split_lastName path]
  exact List.take_left

theorem beforeLastName_append_lastName (path : Text) :
    beforeLastName path ++ lastName path = path := by
  rw [beforeLastName_eq, split_lastName]

theorem slash_not_mem_lastName (path : Text) : '/' ∉ lastName path := by
  intro member
  have passed := List.all_eq_true.mp List.all_takeWhile '/' (List.mem_reverse.mp member)
  exact absurd passed (by decide)

theorem beforeLastName_endsWithSlash (path : Text) : EndsWithSlash (beforeLastName path) := by
  rw [beforeLastName_eq]
  cases left : path.reverse.dropWhile (· != '/') with
  | nil => exact Or.inl rfl
  | cons sign before =>
      have head := List.head?_dropWhile_not (· != '/') path.reverse
      rw [left] at head
      obtain rfl : sign = '/' := by simpa using head
      exact Or.inr ⟨before.reverse, List.reverse_cons⟩

theorem names_of_no_slash (noSlash : '/' ∉ name) : names name = [name] := by
  induction name with
  | nil => rfl
  | cons character name induction =>
      obtain ⟨differs, noSlashLater⟩ := List.ne_and_not_mem_of_not_mem_cons noSlash
      rw [names, if_neg (Ne.symm differs), induction noSlashLater]

theorem exists_names_of_slash (directory : Text) :
    ∃ first others, ∀ name, '/' ∉ name →
      names (directory ++ '/' :: name) = first :: others ++ [name] := by
  induction directory with
  | nil =>
      refine ⟨[], [], fun name noSlash => ?_⟩
      rw [List.nil_append, names, if_pos rfl, names_of_no_slash noSlash]
      rfl
  | cons character directory induction =>
      obtain ⟨first, others, split⟩ := induction
      by_cases slash : character = '/'
      · refine ⟨[], first :: others, fun name noSlash => ?_⟩
        rw [List.cons_append, names, if_pos slash, split name noSlash]
        rfl
      · refine ⟨character :: first, others, fun name noSlash => ?_⟩
        rw [List.cons_append, names, if_neg slash, split name noSlash]
        rfl

theorem exists_names_append {front : Text} (ends : EndsWithSlash front) :
    ∃ above, ∀ name, '/' ∉ name → names (front ++ name) = above ++ [name] := by
  rcases ends with rfl | ⟨directory, rfl⟩
  · exact ⟨[], fun name noSlash => names_of_no_slash noSlash⟩
  · obtain ⟨first, others, split⟩ := exists_names_of_slash directory
    refine ⟨first :: others, fun name noSlash => ?_⟩
    rw [List.append_assoc]
    exact split name noSlash

theorem isAbsolute_append {front : Text} (ends : EndsWithSlash front) :
    ∃ absolute, ∀ name, '/' ∉ name → isAbsolute (front ++ name) = absolute := by
  rcases ends with rfl | ⟨directory, rfl⟩
  · refine ⟨false, fun name noSlash => ?_⟩
    cases name with
    | nil => rfl
    | cons character name =>
        have differs := (List.ne_and_not_mem_of_not_mem_cons noSlash).1
        simpa [isAbsolute] using differs.symm
  · cases directory with
    | nil => exact ⟨true, fun name _ => rfl⟩
    | cons character directory => exact ⟨character == '/', fun name _ => rfl⟩

/-- The last name is the one that a backup of the same file has.  The name `..`, which is no
name of a file, stays as it is too. -/
def IsBackup (path : Text) : Prop :=
  lastName path = ".." ∨
    ∃ stem, stem ≠ [] ∧ stem ≠ "." ∧ lastName path = stem ++ ".bak".toList

theorem stem?_eq_some_iff {stem : Text} :
    stem? name = some stem ↔
      stem ≠ [] ∧ ∃ extension, '.' ∉ extension ∧ name = stem ++ '.' :: extension := by
  constructor
  · intro found
    rw [stem?] at found
    split at found
    · rename_i sign before left
      have head := List.head?_dropWhile_not (· != '.') name.reverse
      rw [left] at head
      obtain rfl : sign = '.' := by simpa using head
      split at found
      · cases found
      · rename_i inhabited
        cases found
        refine ⟨by simpa using inhabited, (name.reverse.takeWhile (· != '.')).reverse, ?_, ?_⟩
        · intro member
          have passed := List.all_eq_true.mp List.all_takeWhile '.' (List.mem_reverse.mp member)
          exact absurd passed (by decide)
        · rw [← List.reverse_inj, List.reverse_append, List.reverse_cons, List.reverse_reverse,
            List.reverse_reverse, List.append_assoc, List.singleton_append, ← left,
            List.takeWhile_append_dropWhile]
    · cases found
  · intro found
    obtain ⟨nonempty, extension, noDot, rfl⟩ := found
    have passed : ∀ letter ∈ extension.reverse, (letter != '.') = true := by
      intro letter member
      refine bne_iff_ne.mpr ?_
      rintro rfl
      exact noDot (List.mem_reverse.mp member)
    have left : (stem ++ '.' :: extension).reverse.dropWhile (· != '.') =
        '.' :: stem.reverse := by
      rw [List.reverse_append, List.reverse_cons, List.append_assoc, List.singleton_append,
        List.dropWhile_append_of_pos passed]
      rfl
    rw [stem?, left]
    simp [nonempty]

theorem stem?_backupName {stem : Text} (nonempty : stem ≠ []) :
    stem? (stem ++ ".bak".toList) = some stem :=
  stem?_eq_some_iff.mpr ⟨nonempty, "bak".toList, by decide, rfl⟩

theorem stem?_parent : stem? ".." = some ".".toList :=
  stem?_eq_some_iff.mpr ⟨by decide, [], by decide, rfl⟩

theorem slash_not_mem_backupName (noSlash : '/' ∉ name) : '/' ∉ backupName name := by
  rw [backupName]
  cases found : stem? name with
  | none => simpa using noSlash
  | some stem =>
      obtain ⟨_, extension, _, rfl⟩ := stem?_eq_some_iff.mp found
      simp only
      split
      · decide
      · have noSlashInStem : '/' ∉ stem := fun member =>
          noSlash (List.mem_append_left _ member)
        simpa using noSlashInStem

theorem backupName_eq_self_iff :
    backupName name = name ↔
      name = ".." ∨ ∃ stem, stem ≠ [] ∧ stem ≠ "." ∧ name = stem ++ ".bak".toList := by
  rw [backupName]
  cases found : stem? name with
  | none =>
      constructor
      · intro same
        simp at same
      · rintro (rfl | ⟨stem, nonempty, _, rfl⟩)
        · rw [stem?_parent] at found
          cases found
        · rw [stem?_backupName nonempty] at found
          cases found
  | some stem =>
      obtain ⟨nonempty, _⟩ := stem?_eq_some_iff.mp found
      simp only
      split
      · rename_i lone
        constructor
        · exact fun same => Or.inl same.symm
        · rintro (rfl | ⟨other, nonempty, notLone, rfl⟩)
          · rfl
          · rw [stem?_backupName nonempty, lone] at found
            exact absurd (Option.some.inj found) notLone
      · rename_i notLone
        constructor
        · exact fun same => Or.inr ⟨stem, nonempty, notLone, same.symm⟩
        · rintro (rfl | ⟨other, nonempty, _, rfl⟩)
          · rw [stem?_parent] at found
            exact absurd (Option.some.inj found).symm notLone
          · rw [stem?_backupName nonempty] at found
            rw [Option.some.inj found]

theorem backup_eq_self_iff : backup path = path ↔ IsBackup path := by
  have split := beforeLastName_append_lastName path
  rw [IsBackup, ← backupName_eq_self_iff, backup]
  constructor
  · intro same
    exact List.append_cancel_left (same.trans split.symm)
  · intro same
    rw [same, split]

end Path

namespace FileTree

variable {tree : FileTree} {here there : Location} {name other path : Text}
  {content : ByteArray}

theorem parent_ne_append (plain : name ≠ "..") : here.parent ≠ here ++ [name] := by
  intro same
  rw [Location.parent] at same
  split at same
  · exact absurd (congrArg List.length same) (by simp)
  · split at same
    · exact plain (List.cons.inj (List.append_cancel_left same)).1.symm
    · have lengths := congrArg List.length same
      rw [List.length_dropLast, List.length_append, List.length_singleton] at lengths
      omega

/-- A name that is followed leads to the directory itself, to the one above, or to a member. -/
theorem follow_cases (found : tree.follow here name = .ok there) :
    there = here ∨ name = ".." ∧ there = here.parent ∨
      name ≠ ".." ∧ there = here ++ [name] := by
  rw [follow, directory_of_follow found] at found
  simp only at found
  split at found
  · cases found
    exact Or.inl rfl
  · split at found
    · rename_i above
      cases found
      exact Or.inr (Or.inl ⟨above, rfl⟩)
    · rename_i plain
      split at found
      · cases found
      · cases found
        exact Or.inr (Or.inr ⟨plain, rfl⟩)

/-- Two names lead from one directory to one place only if a directory stands there. -/
theorem directory_of_two_names
    (found : tree.follow here name = .ok there) (again : tree.follow here other = .ok there)
    (differ : name ≠ other) : tree.get? there = some .directory := by
  have directory := directory_of_follow found
  rcases follow_cases found with rfl | ⟨up, above⟩ | ⟨plain, member⟩
  · exact directory
  · rcases follow_cases again with rfl | ⟨upAgain, _⟩ | ⟨plainAgain, memberAgain⟩
    · exact directory
    · exact absurd (up.trans upAgain.symm) differ
    · exact absurd (above.symm.trans memberAgain) (parent_ne_append plainAgain)
  · rcases follow_cases again with rfl | ⟨_, aboveAgain⟩ | ⟨_, memberAgain⟩
    · exact directory
    · exact absurd (aboveAgain.symm.trans member) (parent_ne_append plain)
    · have same := List.append_cancel_left (member.symm.trans memberAgain)
      exact absurd (List.cons.inj same).1 differ

/-- A path leads to its directory and from there by its last name. -/
theorem followAll_append (tree : FileTree) {front : Text} (ends : Path.EndsWithSlash front) :
    ∃ directory : Except FileError Location, ∀ name, '/' ∉ name →
      tree.followAll (front ++ name) = directory >>= fun here => tree.follow here name := by
  obtain ⟨above, names⟩ := Path.exists_names_append ends
  obtain ⟨absolute, isAbsolute⟩ := Path.isAbsolute_append ends
  refine ⟨above.foldlM tree.follow (if absolute then ["/".toList] else []), ?_⟩
  intro name noSlash
  rw [followAll, names name noSlash, isAbsolute name noSlash, List.foldlM_append]
  simp only [List.foldlM_cons, List.foldlM_nil, bind_pure]

theorem locate_eq_ok {location : Location} (found : tree.locate path = .ok location) :
    tree.followAll path = .ok location := by
  rw [locate] at found
  split at found
  · cases found
  · exact found

theorem exists_location_of_read (read : tree.read path = .ok content) :
    ∃ location, tree.locate path = .ok location ∧
      tree.get? location = some (.file content) :=
  lookup_eq_ok_iff.mp (read_eq_ok_iff_lookup.mp read)

/-- The backup of a file goes to another place, unless it has the path of the file. -/
theorem locate_backup_ne
    (read : tree.read path = .ok content) (apart : ¬ Path.IsBackup path) {location : Location}
    (found : tree.locate path = .ok location) :
    tree.locate (Path.backup path) ≠ .ok location := by
  intro foundBackup
  obtain ⟨place, located, stands⟩ := exists_location_of_read read
  cases located.symm.trans found
  obtain ⟨directory, leads⟩ := tree.followAll_append (Path.beforeLastName_endsWithSlash path)
  have noSlash := Path.slash_not_mem_lastName path
  have followed := locate_eq_ok found
  rw [← Path.beforeLastName_append_lastName path, leads _ noSlash] at followed
  obtain ⟨here, reached, last⟩ := bind_eq_ok_iff.mp followed
  have followedBackup := locate_eq_ok foundBackup
  rw [Path.backup, leads _ (Path.slash_not_mem_backupName noSlash)] at followedBackup
  obtain ⟨hereAgain, reachedAgain, lastBackup⟩ := bind_eq_ok_iff.mp followedBackup
  cases reachedAgain.symm.trans reached
  have differ : Path.lastName path ≠ Path.backupName (Path.lastName path) := fun same =>
    apart (Path.backupName_eq_self_iff.mp same.symm)
  rw [directory_of_two_names last lastBackup differ] at stands
  cases stands

theorem getLast?_of_read (read : tree.read path = .ok content) :
    path.getLast? ≠ some '/' := by
  intro slash
  obtain ⟨location, located, stands⟩ := exists_location_of_read read
  obtain ⟨front, rfl⟩ := List.getLast?_eq_some_iff.mp slash
  obtain ⟨directory, leads⟩ := tree.followAll_append (Or.inr ⟨front, rfl⟩)
  have followed := locate_eq_ok located
  rw [← List.append_nil (front ++ ['/']), leads [] (by decide)] at followed
  obtain ⟨here, _, last⟩ := bind_eq_ok_iff.mp followed
  have onTheWay := directory_of_follow last
  rw [follow, onTheWay] at last
  have stays : here = location := by simpa using last
  rw [← stays, onTheWay] at stands
  cases stands

/-- A file that can be read can be written over. -/
theorem exists_write_of_read (read : tree.read path = .ok content) (other : ByteArray) :
    ∃ after, tree.write path other = .ok after := by
  obtain ⟨location, located, stands⟩ := exists_location_of_read read
  have vacant : tree.get? location ≠ some .directory := by
    rw [stands]
    nofun
  exact ⟨_, write_eq_ok_iff.mpr ⟨location,
    locateTarget_eq_ok_iff.mpr ⟨getLast?_of_read read, located, vacant⟩, rfl⟩⟩

end FileTree

end CleanSvg
