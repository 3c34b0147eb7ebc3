import Mathlib.Data.List.TakeWhile

/-!
# Runs of characters

Scanning takes the longest run of characters with a property off the front of a
text.  A run is known from its characters and from the one behind it.

Main results:

- `takeWhile_run`: a run is taken where the next character does not belong to it.
- `run_append_inj`: a text is cut behind a run in one way only.
- `drop_takeWhile`: behind the run stands what is left of the text.
- `takeWhile_ne_append`: the run up to a character is what stands before its first place.
-/

namespace RubyTree.Text

variable {α : Type} {p : α → Bool} {run rest text : List α}

/-- A run is taken as a whole where the next character does not belong to it. -/
theorem takeWhile_run (hrun : ∀ c ∈ run, p c = true) (hrest : ∀ c ∈ rest.head?, p c = false) :
    (run ++ rest).takeWhile p = run := by
  rw [List.takeWhile_append_of_pos hrun]
  cases rest with
  | nil => simp
  | cons c rest => simp [hrest c rfl]

/-- A text is cut in one way only into a run and something that does not go on with it. -/
theorem run_append_inj {other more : List α} (hrun : ∀ c ∈ run, p c = true)
    (hother : ∀ c ∈ other, p c = true) (hrest : ∀ c ∈ rest.head?, p c = false)
    (hmore : ∀ c ∈ more.head?, p c = false) (h : run ++ rest = other ++ more) :
    run = other ∧ rest = more := by
  have heq : run = other := by
    rw [← takeWhile_run hrun hrest, h, takeWhile_run hother hmore]
  subst heq
  exact ⟨rfl, List.append_cancel_left h⟩

/-- Behind the run stands what is left of the text. -/
theorem drop_takeWhile (p : α → Bool) (text : List α) :
    text.drop (text.takeWhile p).length = text.dropWhile p := by
  calc text.drop (text.takeWhile p).length
      = (text.takeWhile p ++ text.dropWhile p).drop (text.takeWhile p).length := by
        rw [List.takeWhile_append_dropWhile]
    _ = text.dropWhile p := List.drop_left

/-- The character behind the run does not belong to it. -/
theorem head_dropWhile {c : α} (h : text.dropWhile p = c :: rest) : p c = false := by
  have hhead := List.head?_dropWhile_not p text
  rw [h] at hhead
  simpa using hhead

/-- The run up to a character is what stands before its first place. -/
theorem takeWhile_ne_append [DecidableEq α] {c : α} (h : c ∉ run) (rest : List α) :
    (run ++ c :: rest).takeWhile (· ≠ c) = run :=
  takeWhile_run (fun d hd => by simpa using ne_of_mem_of_not_mem hd h) (by simp)

end RubyTree.Text
