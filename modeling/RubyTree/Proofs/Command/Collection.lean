import Mathlib.Data.List.Lex
import Mathlib.Data.List.Nodup
import Mathlib.Data.String.Basic
import RubyTree.Command.Folder

/-!
# The files that paths stand for

A path to a file stands for the file, a path to a directory for the dumps below it, in order and
each once, and a path to nothing for nothing.  Several paths stand for their files one after the
other, so a file that two paths lead to is found twice.

Main results:

- `Path.isAbove_iff` and `Folder.mem_below` say what lies below a place.
- `Folder.mem_dumpsBelow` and `Folder.pairwise_dumpsBelow` determine the dumps of a directory.
- `Folder.isFileOrDirectoryOrMissing_iff` says which paths can be followed.
- `Folder.Collects` is what a path stands for; `Folder.Collects.collect_eq` says that this is found,
  and `Folder.exists_collectAll` that it is found for a row of paths.
-/

namespace RubyTree.Command

/-! ## Paths below a path -/

namespace Path

theorem isAbove_iff {path other : Path} :
    path.isAbove other = true ↔
      ∃ parts, parts ≠ [] ∧ ".." ∉ parts ∧ other = path.append parts := by
  constructor
  · intro h
    simp only [isAbove, Bool.and_eq_true, decide_eq_true_eq, List.isPrefixOf_iff_prefix] at h
    rcases h with ⟨⟨⟨hroot, parts, hparts⟩, hlength⟩, hback⟩
    rw [← hparts, List.drop_left] at hback
    refine ⟨parts, ?_, hback, ?_⟩
    · rintro rfl
      simp [← hparts] at hlength
    · rw [append, hroot, hparts]
  · rintro ⟨parts, hne, hback, rfl⟩
    simp [isAbove, append, hne, hback, List.length_pos_iff]

theorem mem_beginnings {parts all : List String} :
    parts ∈ beginnings all ↔ parts ≠ [] ∧ parts <+: all := by
  rw [beginnings, List.mem_map]
  constructor
  · rintro ⟨n, hn, rfl⟩
    have hlength := List.mem_range.1 hn
    refine ⟨?_, List.take_prefix _ _⟩
    rw [Ne, List.take_eq_nil_iff]
    rintro (h | rfl)
    · cases h
    · cases hlength
  · rintro ⟨hne, hprefix⟩
    have hpos := List.length_pos_iff.2 hne
    have hle := hprefix.length_le
    refine ⟨parts.length - 1, List.mem_range.2 (by omega), ?_⟩
    rw [Nat.sub_add_cancel hpos]
    exact (List.prefix_iff_eq_take.1 hprefix).symm

theorem append_injective (path : Path) : Function.Injective path.append := by
  intro a b h
  exact List.append_cancel_left (congrArg Path.parts h)

theorem not_before_trans (a b c : Path) (hab : (!b.before a) = true) (hbc : (!c.before b) = true) :
    (!c.before a) = true := by
  simp only [before, Bool.not_eq_true', decide_eq_false_iff_not, not_lt] at hab hbc ⊢
  exact hab.trans hbc

theorem not_before_total (a b : Path) : (!b.before a || !a.before b) = true := by
  simp only [before, Bool.or_eq_true, Bool.not_eq_true', decide_eq_false_iff_not, not_lt]
  exact le_total a.parts b.parts

theorem before_asymm {a b : Path} (hab : a.before b = true) (hba : b.before a = true) : False := by
  simp only [before, decide_eq_true_eq] at hab hba
  exact lt_asymm hab hba

/-- Two rows of paths in order, each path once, are the same if they hold the same paths. -/
theorem eq_of_pairwise_before {xs ys : List Path} (hxs : xs.Pairwise fun a b => a.before b = true)
    (hys : ys.Pairwise fun a b => a.before b = true) (h : ∀ path, path ∈ xs ↔ path ∈ ys) :
    xs = ys := by
  have hnodup : ∀ {l : List Path}, (l.Pairwise fun a b => a.before b = true) → l.Nodup := by
    intro l hl
    refine hl.imp ?_
    rintro a b hab rfl
    exact before_asymm hab hab
  have hperm : xs.Perm ys := (List.perm_ext_iff_of_nodup (hnodup hxs) (hnodup hys)).2 h
  exact hperm.eq_of_pairwise (fun _ _ _ _ hab hba => (before_asymm hab hba).elim) hxs hys

end Path

theorem nodup_eraseDups {α : Type} [BEq α] [LawfulBEq α] (l : List α) : l.eraseDups.Nodup := by
  match l with
  | [] => exact List.nodup_nil
  | a :: rest =>
    rw [List.eraseDups_cons, List.nodup_cons, List.mem_eraseDups]
    refine ⟨?_, nodup_eraseDups (rest.filter fun b => !b == a)⟩
    intro hmem
    simpa using (List.mem_filter.1 hmem).2
termination_by l.length
decreasing_by
  exact Nat.lt_succ_of_le (List.length_filter_le _ rest)

namespace Folder

variable {folder : Folder} {path place : Path} {parts : List String} {text : String}

/-! ## The dumps of a directory -/

theorem isSome_file?_iff :
    (folder.file? place).isSome = true ↔ ∃ text, (place, text) ∈ folder.files := by
  rw [file?, List.lookup_isSome_iff]
  constructor
  · rintro ⟨⟨other, text⟩, hmem, hplace⟩
    exact ⟨text, (beq_iff_eq.1 hplace) ▸ hmem⟩
  · rintro ⟨text, hmem⟩
    exact ⟨_, hmem, beq_self_eq_true place⟩

/-- What lies below a place is a file or leads to one. -/
theorem mem_below :
    parts ∈ folder.below place ↔ parts ≠ [] ∧
      ∃ rest text, (place.append (parts ++ rest), text) ∈ folder.files ∧ ".." ∉ parts ++ rest := by
  rw [below, List.mem_eraseDups, List.mem_flatMap]
  constructor
  · rintro ⟨⟨other, text⟩, hmem, hparts⟩
    dsimp only at hparts
    by_cases habove : place.isAbove other = true
    · rcases Path.isAbove_iff.1 habove with ⟨all, -, hback, rfl⟩
      rw [if_pos habove, Path.append, List.drop_left, Path.mem_beginnings] at hparts
      rcases hparts with ⟨hne, rest, rfl⟩
      exact ⟨hne, rest, text, hmem, hback⟩
    · simp [if_neg habove] at hparts
  · rintro ⟨hne, rest, text, hmem, hback⟩
    have habove : place.isAbove (place.append (parts ++ rest)) = true :=
      Path.isAbove_iff.2 ⟨_, List.append_ne_nil_of_left_ne_nil hne _, hback, rfl⟩
    refine ⟨_, hmem, ?_⟩
    dsimp only
    rw [if_pos habove, Path.append, List.drop_left, Path.mem_beginnings]
    exact ⟨hne, List.prefix_append parts rest⟩

/-- No directory is named like a dump. -/
def NamesNoDirectory (folder : Folder) : Prop :=
  ∀ place, folder.isDirectory place = true → place.parts.getLast?.any isDumpName = false

/-- No directory is named like a dump if no part in front of the last one of a file is. -/
theorem namesNoDirectory_of_parts
    (hlisted : ∀ place ∈ folder.directories, place.parts.getLast?.any isDumpName = false)
    (hfiles : ∀ file ∈ folder.files, ∀ part ∈ file.1.parts.dropLast, isDumpName part = false) :
    folder.NamesNoDirectory := by
  intro place hplace
  rw [isDirectory, Bool.or_eq_true, Bool.or_eq_true] at hplace
  rcases hplace with (hback | hmem) | habove
  · cases hlast : place.parts.getLast? with
    | none => rfl
    | some last =>
      have hpart := List.all_eq_true.1 hback last (List.mem_of_getLast? hlast)
      rw [of_decide_eq_true hpart]
      decide
  · exact hlisted place (List.contains_iff_mem.1 hmem)
  · rcases List.any_eq_true.1 habove with ⟨⟨path, text⟩, hfile, habove⟩
    rcases Path.isAbove_iff.1 habove with ⟨parts, hne, -, rfl⟩
    cases hlast : place.parts.getLast? with
    | none => rfl
    | some last =>
      apply hfiles _ hfile
      rw [Path.append, List.dropLast_append_of_ne_nil hne]
      exact List.mem_append_left _ (List.mem_of_getLast? hlast)

/-- A dump lies below a place, at the end of some parts. -/
def HasDump (folder : Folder) (place : Path) (parts : List String) : Prop :=
  ".." ∉ parts ∧ parts.getLast?.any isDumpName = true ∧
    (folder.file? (place.append parts)).isSome = true

theorem getLast?_append_parts (h : parts ≠ []) :
    (place.append parts).parts.getLast? = parts.getLast? := by
  rw [Path.append, List.getLast?_append, List.getLast?_eq_some_getLast h]
  rfl

/-- The dumps of a directory are the files below it with such names. -/
theorem mem_dumpsBelow (hnames : folder.NamesNoDirectory) {other : Path} :
    other ∈ folder.dumpsBelow path place ↔
      ∃ parts, other = path.append parts ∧ folder.HasDump place parts := by
  rw [dumpsBelow, List.mem_mergeSort, List.mem_map]
  constructor
  · rintro ⟨parts, hparts, rfl⟩
    rcases List.mem_filter.1 hparts with ⟨hbelow, hdump⟩
    rcases mem_below.1 hbelow with ⟨hne, rest, text, hmem, hback⟩
    rw [List.mem_append, not_or] at hback
    by_cases hrest : rest = []
    · subst hrest
      rw [List.append_nil] at hmem
      exact ⟨parts, rfl, hback.1, hdump, isSome_file?_iff.2 ⟨text, hmem⟩⟩
    · -- the parts lead to a directory, and none is named like a dump
      have habove : (place.append parts).isAbove (place.append (parts ++ rest)) = true :=
        Path.isAbove_iff.2 ⟨rest, hrest, hback.2, by simp [Path.append]⟩
      have hdirectory : folder.isDirectory (place.append parts) = true := by
        rw [isDirectory, Bool.or_eq_true, List.any_eq_true]
        exact .inr ⟨_, hmem, habove⟩
      have hlast := hnames _ hdirectory
      rw [getLast?_append_parts hne] at hlast
      cases hlast.symm.trans hdump
  · rintro ⟨parts, rfl, hback, hdump, hfile⟩
    rcases isSome_file?_iff.1 hfile with ⟨text, hmem⟩
    have hne : parts ≠ [] := by
      rintro rfl
      cases hdump
    have hbelow : parts ∈ folder.below place :=
      mem_below.2 ⟨hne, [], text, by rwa [List.append_nil], by rwa [List.append_nil]⟩
    exact ⟨parts, List.mem_filter.2 ⟨hbelow, hdump⟩, rfl⟩

/-- The dumps of a directory are in order, each once. -/
theorem pairwise_dumpsBelow (folder : Folder) (path place : Path) :
    (folder.dumpsBelow path place).Pairwise fun a b => a.before b = true := by
  have hsorted : (folder.dumpsBelow path place).Pairwise fun a b => (!b.before a) = true :=
    List.pairwise_mergeSort Path.not_before_trans Path.not_before_total _
  have hnodup : (folder.dumpsBelow path place).Nodup := by
    rw [dumpsBelow, (List.mergeSort_perm _ _).nodup_iff]
    exact List.Nodup.map path.append_injective (List.Nodup.filter _ (nodup_eraseDups _))
  refine (hsorted.and hnodup).imp_of_mem ?_
  rintro a b ha hb ⟨hle, hne⟩
  rw [dumpsBelow, List.mem_mergeSort, List.mem_map] at ha hb
  rcases ha with ⟨parts, -, rfl⟩
  rcases hb with ⟨others, -, rfl⟩
  rw [Bool.not_eq_true', Path.before, decide_eq_false_iff_not, not_lt] at hle
  rw [Path.before, decide_eq_true_iff]
  exact lt_of_le_of_ne hle fun hparts => hne (congrArg (Path.mk path.root) hparts)

/-! ## What paths stand for -/

/-- The path leads to a file with a text. -/
def FileAt (folder : Folder) (path place : Path) (text : String) : Prop :=
  folder.locate path = .ok place ∧ folder.isDirectory place = false ∧
    folder.file? place = some text

theorem FileAt.readText (h : folder.FileAt path place text) :
    folder.readText path = .ok (String.ofList (Text.unifyBreaks text.toList)) := by
  rcases h with ⟨hplace, hdirectory, htext⟩
  simp [Folder.readText, hplace, hdirectory, htext]

/-- The path leads to a directory. -/
def DirectoryAt (folder : Folder) (path place : Path) : Prop :=
  folder.locate path = .ok place ∧ folder.isDirectory place = true

/-- The path leads to nothing: it ends, or breaks off, where nothing is. -/
def NothingAt (folder : Folder) (path : Path) : Prop :=
  (∃ fault, folder.locate path = .error fault ∧ fault.isMissing = true) ∨
    ∃ place, folder.locate path = .ok place ∧ folder.isDirectory place = false ∧
      folder.file? place = none

/-- The path leads to a file, to a directory or to nothing. -/
def IsFileOrDirectoryOrMissing (folder : Folder) (path : Path) : Prop :=
  (∃ place text, folder.FileAt path place text) ∨ (∃ place, folder.DirectoryAt path place) ∨
    folder.NothingAt path

theorem follow_eq_error {fault : FileFault} (h : folder.follow parts place = .error fault) :
    fault.isMissing = true ∨ fault = .nameTooLong := by
  induction parts generalizing place with
  | nil => cases h
  | cons part rest ih =>
    rw [follow] at h
    split at h
    · split at h
      · exact ih h
      · cases h
        exact .inr rfl
    · split at h
      · cases h
        exact .inl rfl
      · cases h
        exact .inl rfl

theorem locate_eq_error {fault : FileFault} (h : folder.locate path = .error fault) :
    fault.isMissing = true ∨ fault = .nameTooLong := by
  rw [locate] at h
  split at h
  · cases h
    exact .inl rfl
  · split at h
    · exact follow_eq_error h
    · cases h
      exact .inr rfl

/-- Only a path that is too long to be followed leads neither somewhere nor nowhere. -/
theorem isFileOrDirectoryOrMissing_iff :
    folder.IsFileOrDirectoryOrMissing path ↔ folder.locate path ≠ .error .nameTooLong := by
  constructor
  · rintro (⟨place, text, hplace, -⟩ | ⟨place, hplace, -⟩ | ⟨fault, hfault, hmissing⟩ |
      ⟨place, hplace, -⟩) hlong
    · cases hplace.symm.trans hlong
    · cases hplace.symm.trans hlong
    · cases hfault.symm.trans hlong
      cases hmissing
    · cases hplace.symm.trans hlong
  · intro hlong
    cases hlocate : folder.locate path with
    | error fault =>
      rcases locate_eq_error hlocate with hmissing | rfl
      · exact .inr (.inr (.inl ⟨fault, hlocate, hmissing⟩))
      · exact absurd hlocate hlong
    | ok place =>
      cases hdir : folder.isDirectory place with
      | true => exact .inr (.inl ⟨place, hlocate, hdir⟩)
      | false =>
        cases htext : folder.file? place with
        | some text => exact .inl ⟨place, text, hlocate, hdir, htext⟩
        | none => exact .inr (.inr (.inr ⟨place, hlocate, hdir, htext⟩))

/-- The files that a path stands for. -/
inductive Collects (folder : Folder) (path : Path) : List Path → Prop
  /-- A file stands for itself. -/
  | file {place : Path} {text : String} (h : folder.FileAt path place text) :
      Collects folder path [path]
  /-- A directory stands for the dumps below it, in order and each once. -/
  | directory {place : Path} {found : List Path} (h : folder.DirectoryAt path place)
      (hsorted : found.Pairwise fun a b => a.before b = true)
      (hmem : ∀ other, other ∈ found ↔
        ∃ parts, other = path.append parts ∧ folder.HasDump place parts) :
      Collects folder path found
  /-- Nothing stands for nothing. -/
  | missing (h : folder.NothingAt path) : Collects folder path []

/-- Every path that can be followed stands for some files. -/
theorem exists_collects (hnames : folder.NamesNoDirectory)
    (hpath : folder.IsFileOrDirectoryOrMissing path) : ∃ found, folder.Collects path found := by
  rcases hpath with ⟨place, text, hfile⟩ | ⟨place, hdirectory⟩ | hnothing
  · exact ⟨[path], .file hfile⟩
  · exact ⟨folder.dumpsBelow path place, .directory hdirectory
      (pairwise_dumpsBelow folder path place) fun _ => mem_dumpsBelow hnames⟩
  · exact ⟨[], .missing hnothing⟩

/-- What a path stands for is found, and nothing else. -/
theorem Collects.collect_eq (hnames : folder.NamesNoDirectory) {found : List Path}
    (h : folder.Collects path found) : folder.collect path = .ok found := by
  cases h with
  | file h =>
    rcases h with ⟨hplace, hdirectory, htext⟩
    simp [collect, hplace, hdirectory, htext]
  | @directory place _ h hsorted hmem =>
    have hfound : folder.dumpsBelow path place = found :=
      Path.eq_of_pairwise_before (pairwise_dumpsBelow folder path place) hsorted fun other =>
        (mem_dumpsBelow hnames).trans (hmem other).symm
    rcases h with ⟨hplace, hdirectory⟩
    simp [collect, hplace, hdirectory, hfound]
  | missing h =>
    rcases h with ⟨fault, hfault, hmissing⟩ | ⟨place, hplace, hdirectory, htext⟩
    · simp [collect, hfault, hmissing]
    · simp [collect, hplace, hdirectory, htext]

/-- A path stands for one list of files. -/
theorem Collects.unique (hnames : folder.NamesNoDirectory) {found others : List Path}
    (h : folder.Collects path found) (hother : folder.Collects path others) : found = others :=
  Except.ok.inj ((h.collect_eq hnames).symm.trans (hother.collect_eq hnames))

/-- A row of paths stands for one row of lists of files. -/
theorem forall₂_collects_unique (hnames : folder.NamesNoDirectory) {paths : List Path}
    {groups others : List (List Path)} (h : List.Forall₂ folder.Collects paths groups)
    (hothers : List.Forall₂ folder.Collects paths others) : groups = others := by
  induction h generalizing others with
  | nil =>
    cases hothers
    rfl
  | cons hfound _ ih =>
    cases hothers with
    | cons hother hrest => rw [hfound.unique hnames hother, ih hrest]

/-- What a row of paths stands for is found, for one path after the other. -/
theorem exists_collectAll (hnames : folder.NamesNoDirectory) {paths : List Path}
    (hpaths : ∀ path ∈ paths, folder.IsFileOrDirectoryOrMissing path) :
    ∃ groups, List.Forall₂ folder.Collects paths groups ∧
      folder.collectAll paths = .ok groups.flatten := by
  induction paths with
  | nil => exact ⟨[], .nil, rfl⟩
  | cons path rest ih =>
    rcases List.forall_mem_cons.1 hpaths with ⟨hpath, hrest⟩
    rcases exists_collects hnames hpath with ⟨found, hfound⟩
    rcases ih hrest with ⟨groups, hgroups, hall⟩
    refine ⟨found :: groups, .cons hfound hgroups, ?_⟩
    rw [collectAll, hfound.collect_eq hnames, hall]
    rfl

end Folder

end RubyTree.Command
