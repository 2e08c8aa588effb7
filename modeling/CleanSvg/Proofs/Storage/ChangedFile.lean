import CleanSvg.Steps
import CleanSvg.Storage.FileTree

/-!
# Trees that differ in one file

Writing puts a file where no directory stands.  Hence the same locations are
directories before and after, every path leads to the same location in both
trees, and a path that does not lead to the written file leads to the same
entry.  `ChangedOnly` says where one write or several can have changed a tree.
-/

namespace CleanSvg.FileTree

variable {before between after tree : FileTree}

/-- The same locations are directories in both trees. -/
def SameDirectories (before after : FileTree) : Prop :=
  ∀ location, after.get? location = some .directory ↔ before.get? location = some .directory

theorem directory_of_follow {here there : Location} {name : Text}
    (found : tree.follow here name = .ok there) : tree.get? here = some .directory := by
  unfold follow at found
  split at found
  · cases found
  · cases found
  · assumption

theorem SameDirectories.symm (same : SameDirectories before after) :
    SameDirectories after before :=
  fun location => (same location).symm

theorem SameDirectories.follow_eq_ok
    (same : SameDirectories before after) {here there : Location} {name : Text}
    (found : before.follow here name = .ok there) : after.follow here name = .ok there := by
  have directory := directory_of_follow found
  rw [follow, directory] at found
  rw [follow, (same here).mpr directory]
  exact found

theorem SameDirectories.foldlM_follow_eq_ok
    (same : SameDirectories before after) {names : List Text} {start there : Location}
    (found : names.foldlM before.follow start = .ok there) :
    names.foldlM after.follow start = .ok there := by
  induction names generalizing start with
  | nil => exact found
  | cons name names induction =>
      rw [List.foldlM_cons] at found ⊢
      obtain ⟨next, first, others⟩ := bind_eq_ok_iff.mp found
      apply bind_eq_ok_iff.mpr
      exact ⟨next, same.follow_eq_ok first, induction others⟩

theorem SameDirectories.locate_eq_ok
    (same : SameDirectories before after) {path : Text} {location : Location}
    (found : before.locate path = .ok location) : after.locate path = .ok location := by
  unfold locate at found ⊢
  cases refused : pathError? path with
  | some cause =>
      rw [refused] at found
      cases found
  | none =>
      rw [refused] at found
      exact same.foldlM_follow_eq_ok found

theorem SameDirectories.locate_eq_ok_iff
    (same : SameDirectories before after) {path : Text} {location : Location} :
    after.locate path = .ok location ↔ before.locate path = .ok location :=
  ⟨same.symm.locate_eq_ok, same.locate_eq_ok⟩

theorem lookup_eq_ok_iff {path : Text} {entry : Entry} :
    tree.lookup path = .ok entry ↔
      ∃ location, tree.locate path = .ok location ∧ tree.get? location = some entry := by
  unfold lookup
  rw [bind_eq_ok_iff]
  refine exists_congr fun location => and_congr_right fun _ => ?_
  cases tree.get? location <;> simp

theorem read_eq_ok_iff_lookup {path : Text} {content : ByteArray} :
    tree.read path = .ok content ↔ tree.lookup path = .ok (.file content) := by
  unfold read
  rw [bind_eq_ok_iff]
  constructor
  · intro found
    obtain ⟨entry, stands, opened⟩ := found
    cases entry with
    | file bytes =>
        cases opened
        exact stands
    | directory => cases opened
  · intro stands
    exact ⟨.file content, stands, rfl⟩

theorem isAncestor_of_vacant {location : Location}
    (vacant : tree.get? location ≠ some .directory) : location.isAncestor = false := by
  rw [← Bool.not_eq_true]
  intro ancestor
  apply vacant
  rw [get?, if_pos ancestor]

/-- A file is written where a path leads, unless a directory stands there or the path asks
for one. -/
theorem locateTarget_eq_ok_iff {path : Text} {location : Location} :
    tree.locateTarget path = .ok location ↔
      path.getLast? ≠ some '/' ∧ tree.locate path = .ok location ∧
        tree.get? location ≠ some .directory := by
  unfold locateTarget locate
  cases pathError? path with
  | some cause => simp
  | none =>
      by_cases slash : path.getLast? = some '/'
      · simp only [slash, if_true, ne_eq, not_true_eq_false, false_and, iff_false]
        intro found
        obtain ⟨_, _, refused⟩ := bind_eq_ok_iff.mp found
        cases refused
      · simp only [slash, if_false, ne_eq, not_false_eq_true, true_and]
        rw [bind_eq_ok_iff]
        constructor
        · intro found
          obtain ⟨there, followed, vacant⟩ := found
          split at vacant
          · cases vacant
          · rename_i noDirectory
            cases vacant
            exact ⟨followed, noDirectory⟩
        · intro found
          refine ⟨location, found.1, ?_⟩
          split
          · rename_i directory
            exact absurd directory found.2
          · rfl

theorem write_eq_ok_iff {path : Text} {content : ByteArray} :
    tree.write path content = .ok after ↔
      ∃ location, tree.locateTarget path = .ok location ∧
        after = tree.put location (.file content) := by
  unfold write
  rw [bind_eq_ok_iff]
  simp only [Except.ok.injEq, eq_comm]

/-- Whether a path can be written to is seen from where it leads and from the directories. -/
theorem SameDirectories.write_isOk
    (same : SameDirectories before after) {path : Text} {content : ByteArray}
    (written : ∃ result, before.write path content = .ok result) :
    ∃ result, after.write path content = .ok result := by
  obtain ⟨result, written⟩ := written
  obtain ⟨location, target, _⟩ := write_eq_ok_iff.mp written
  obtain ⟨noSlash, located, vacant⟩ := locateTarget_eq_ok_iff.mp target
  refine ⟨_, write_eq_ok_iff.mpr ⟨location, ?_, rfl⟩⟩
  apply locateTarget_eq_ok_iff.mpr
  refine ⟨noSlash, same.locate_eq_ok located, ?_⟩
  intro directory
  exact vacant ((same location).mp directory)

/-- The second tree has the directories of the first and differs from it only at locations
that may change. -/
structure ChangedOnly (changeable : Location → Prop) (before after : FileTree) : Prop where
  directories : SameDirectories before after
  elsewhere : ∀ location, ¬ changeable location →
    after.get? location = before.get? location

namespace ChangedOnly

variable {changeable : Location → Prop}

theorem refl (changeable : Location → Prop) (tree : FileTree) :
    ChangedOnly changeable tree tree where
  directories _ := Iff.rfl
  elsewhere _ _ := rfl

theorem trans (first : ChangedOnly changeable before between)
    (second : ChangedOnly changeable between after) : ChangedOnly changeable before after where
  directories location := (second.directories location).trans (first.directories location)
  elsewhere location fixed :=
    (second.elsewhere location fixed).trans (first.elsewhere location fixed)

theorem mono {wider : Location → Prop} (changed : ChangedOnly changeable before after)
    (within : ∀ location, changeable location → wider location) :
    ChangedOnly wider before after where
  directories := changed.directories
  elsewhere location fixed := by
    apply changed.elsewhere
    intro inside
    exact fixed (within location inside)

theorem of_write {path : Text} {content : ByteArray}
    (written : before.write path content = .ok after) :
    ChangedOnly (fun location => before.locate path = .ok location) before after := by
  obtain ⟨location, target, rfl⟩ := write_eq_ok_iff.mp written
  obtain ⟨_, located, vacant⟩ := locateTarget_eq_ok_iff.mp target
  have inside := isAncestor_of_vacant vacant
  constructor
  · intro other
    by_cases here : other = location
    · subst here
      rw [get?_put_self before _ inside]
      simp [vacant]
    · rw [get?_put_other before _ here]
  · intro other fixed
    apply get?_put_other
    intro here
    subst here
    exact fixed located

theorem lookup_eq_ok_iff
    (changed : ChangedOnly changeable before after) {path : Text}
    (fixed : ∀ location, before.locate path = .ok location → ¬ changeable location)
    {entry : Entry} : after.lookup path = .ok entry ↔ before.lookup path = .ok entry := by
  rw [FileTree.lookup_eq_ok_iff, FileTree.lookup_eq_ok_iff]
  refine exists_congr fun location => ?_
  rw [changed.directories.locate_eq_ok_iff]
  refine and_congr_right fun located => ?_
  rw [changed.elsewhere location (fixed location located)]

theorem read_eq_ok_iff
    (changed : ChangedOnly changeable before after) {path : Text}
    (fixed : ∀ location, before.locate path = .ok location → ¬ changeable location)
    {content : ByteArray} : after.read path = .ok content ↔ before.read path = .ok content := by
  rw [read_eq_ok_iff_lookup, read_eq_ok_iff_lookup, changed.lookup_eq_ok_iff fixed]

end ChangedOnly

theorem read_of_write {path : Text} {content : ByteArray}
    (written : before.write path content = .ok after) : after.read path = .ok content := by
  have changed := ChangedOnly.of_write written
  obtain ⟨location, target, rfl⟩ := write_eq_ok_iff.mp written
  obtain ⟨_, located, vacant⟩ := locateTarget_eq_ok_iff.mp target
  apply read_eq_ok_iff_lookup.mpr
  apply lookup_eq_ok_iff.mpr
  refine ⟨location, changed.directories.locate_eq_ok located, ?_⟩
  exact get?_put_self before _ (isAncestor_of_vacant vacant)

end CleanSvg.FileTree
