import RubyTree.Proofs.Command.Collection

/-!
# Written files

A text is written below directories that are made where they are missing.  Afterwards the path leads
to the file, the file holds the text, and all other files hold what they held before.

Main results:

- `Folder.ensureWay_files`: making directories leaves the files alone.
- `Folder.FileAt.put` is a file that is put, and `Folder.file?_put_of_ne` every other one.
- `Folder.writeText_eq_ok_iff` says when a text is written, and
  `Folder.IsWritable.exists_writeText` what is there afterwards.
-/

namespace RubyTree.Command

namespace Folder

variable {folder made other : Folder} {path place elsewhere : Path} {parts : List String}
  {text : String}

/-! ## Making directories -/

theorem makeDirectory_files (h : folder.makeDirectory path = .ok made) :
    made.files = folder.files := by
  rw [makeDirectory] at h
  split at h
  · cases h
  · split at h
    · cases h
    · cases h
      rfl

theorem acceptDirectory_eq {fault : FileFault} (h : folder.acceptDirectory path fault = .ok made) :
    made = folder := by
  rw [acceptDirectory] at h
  split at h
  · cases h
  · split at h
    · cases h
      rfl
    · cases h

theorem ensureDirectory_files (h : folder.ensureDirectory path = .ok made) :
    made.files = folder.files := by
  rw [ensureDirectory] at h
  split at h
  · next hmade =>
    cases h
    exact makeDirectory_files hmade
  · rw [acceptDirectory_eq h]

/-- Making the directories on a way leaves the files alone. -/
theorem ensureWay_files {root : Root} (h : folder.ensureWay root parts = .ok made) :
    made.files = folder.files := by
  induction parts generalizing made with
  | nil =>
    cases h
    rfl
  | cons part above ih =>
    rw [ensureWay] at h
    split at h
    · split at h
      · cases h
      · next between hbetween => rw [ensureDirectory_files h, ih hbetween]
    · exact ensureDirectory_files h

/-! ## A file that is put -/

theorem files_put : (folder.put place text).files =
    (folder.files.filter fun file => file.1 ≠ place) ++ [(place, text)] :=
  rfl

theorem isDirectory_eq : folder.isDirectory place =
    (place.parts.all (· = "..") || folder.directories.contains place ||
      folder.files.any fun file => place.isAbove file.1) :=
  rfl

theorem file?_put : (folder.put place text).file? place = some text := by
  have hothers : (folder.files.filter fun file => file.1 ≠ place).lookup place = none := by
    rw [List.lookup_eq_none_iff]
    intro file hmem
    have hne : file.1 ≠ place := by simpa using (List.mem_filter.1 hmem).2
    simpa using hne.symm
  rw [file?, files_put, List.lookup_append, hothers, Option.none_or, List.lookup_cons,
    beq_self_eq_true]

theorem file?_put_of_ne (h : elsewhere ≠ place) :
    (folder.put place text).file? elsewhere = folder.file? elsewhere := by
  rw [file?, files_put, List.lookup_append, List.lookup_cons, beq_false_of_ne h, List.lookup_nil,
    Option.or_none, file?]
  induction folder.files with
  | nil => rfl
  | cons first rest ih =>
    by_cases hkey : first.1 = place
    · have hne : (elsewhere == first.1) = false := beq_false_of_ne (hkey ▸ h)
      rw [List.filter_cons_of_neg (by simpa using hkey), ih, List.lookup_cons, hne]
    · rw [List.filter_cons_of_pos (by simpa using hkey), List.lookup_cons, List.lookup_cons, ih]

/-- Directories stay directories, and those above the file become some. -/
theorem isDirectory_put :
    (folder.put place text).isDirectory elsewhere =
      (folder.isDirectory elsewhere || elsewhere.isAbove place) := by
  have hany : ((folder.put place text).files.any fun file => elsewhere.isAbove file.1) =
      ((folder.files.any fun file => elsewhere.isAbove file.1) || elsewhere.isAbove place) := by
    rw [files_put, List.any_append, List.any_filter]
    cases habove : elsewhere.isAbove place with
    | true => simp [habove]
    | false =>
      -- the file that is replaced stood where the new one stands
      have hreplaced : (fun file : Path × String =>
          decide (file.1 ≠ place) && elsewhere.isAbove file.1) =
          fun file => elsewhere.isAbove file.1 := by
        funext file
        by_cases hfile : file.1 = place
        · simp [hfile, habove]
        · simp [hfile]
      rw [hreplaced, List.any_cons, habove, List.any_nil, Bool.or_false]
  rw [isDirectory_eq, hany, isDirectory_eq, Bool.or_assoc _ _ (elsewhere.isAbove place)]
  rfl

theorem follow_mono
    (hmono : ∀ place, folder.isDirectory place = true → other.isDirectory place = true)
    (h : folder.follow parts elsewhere = .ok place) : other.follow parts elsewhere = .ok place := by
  induction parts generalizing elsewhere with
  | nil => exact h
  | cons part rest ih =>
    rw [follow] at h ⊢
    split at h
    · next hdirectory =>
      rw [if_pos (hmono _ hdirectory)]
      split at h
      · next hlength =>
        rw [if_pos hlength]
        exact ih h
      · cases h
    · split at h <;> cases h

/-- A path leads through more directories to the same place. -/
theorem locate_mono
    (hmono : ∀ place, folder.isDirectory place = true → other.isDirectory place = true)
    (h : folder.locate path = .ok place) : other.locate path = .ok place := by
  rw [locate] at h ⊢
  split at h
  · cases h
  · next hnull =>
    rw [if_neg hnull]
    split at h
    · next hlength =>
      rw [if_pos hlength]
      exact follow_mono hmono h
    · cases h

/-- Behind the path of a file that is put stands its text. -/
theorem FileAt.put (hplace : folder.locate path = .ok place)
    (hdirectory : folder.isDirectory place = false) :
    (folder.put place text).FileAt path place text := by
  refine ⟨locate_mono ?_ hplace, ?_, file?_put⟩
  · intro other hother
    rw [isDirectory_put, hother, Bool.true_or]
  · rw [isDirectory_put, hdirectory, Bool.false_or, Bool.eq_false_iff]
    intro habove
    rcases Path.isAbove_iff.1 habove with ⟨parts, hne, -, hparts⟩
    exact hne (List.self_eq_append_right.1 (congrArg Path.parts hparts))

/-! ## Writing a text -/

/-- A text is written if the way to the path can be made and no directory stands there. -/
theorem writeText_eq_ok_iff {after : Folder} :
    folder.writeText path text = .ok (after, place) ↔
      ∃ made, folder.ensureWay path.root path.parent.parts.reverse = .ok made ∧
        made.locate path = .ok place ∧ made.isDirectory place = false ∧
        after = made.put place text := by
  constructor
  · intro h
    rw [writeText] at h
    split at h
    · cases h
    · next made hway =>
      split at h
      · cases h
      · next found hplace =>
        split at h
        · cases h
        · next hdirectory =>
          cases h
          exact ⟨made, hway, hplace, Bool.eq_false_iff.2 hdirectory, rfl⟩
  · rintro ⟨made, hway, hplace, hdirectory, rfl⟩
    rw [writeText, hway]
    simp [hplace, hdirectory]

/-- A file can be written at the path. -/
def IsWritable (folder : Folder) (path : Path) : Prop :=
  ∃ text written, folder.writeText path text = .ok written

/-- Where one text can be written, every text can.  It is the text of the file that the path leads
to, and no other file changes. -/
theorem IsWritable.exists_writeText (h : folder.IsWritable path) (text : String) :
    ∃ after place, folder.writeText path text = .ok (after, place) ∧
      after.FileAt path place text ∧
      ∀ elsewhere, elsewhere ≠ place → after.file? elsewhere = folder.file? elsewhere := by
  rcases h with ⟨sample, ⟨written, place⟩, hwritten⟩
  rcases writeText_eq_ok_iff.1 hwritten with ⟨made, hway, hplace, hdirectory, -⟩
  refine ⟨made.put place text, place, ?_, .put hplace hdirectory, ?_⟩
  · exact writeText_eq_ok_iff.2 ⟨made, hway, hplace, hdirectory, rfl⟩
  · intro elsewhere hne
    rw [file?_put_of_ne hne, file?, ensureWay_files hway, file?]

end Folder

end RubyTree.Command
