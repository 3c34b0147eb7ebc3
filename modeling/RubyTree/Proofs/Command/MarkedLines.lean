import RubyTree.Command.Run
import RubyTree.Proofs.Sexp.Twins

/-!
# Lines in code points

A listing asks accessors for values and spells them, and both keep twins.  So a tree and its marked
reading are listed in as many lines, which are twins, and both together tell the code points of
every line.

Main results:

- `Value.twins_brief`: twins have twins for forms.
- `Node.twinLines_listing`: trees that are twins have twins for lines.
- `Command.exists_codeBlock`: the block of a file comes to its end, and its characters are the lines
  of the tree.
- `Command.map_charAt_intercalate`: so it is for the text that is put together from lines.
-/

namespace RubyTree

open RubyTree.Text

variable {α β : Type}

/-! ## Values -/

mutual

/-- The forms of twins are twins. -/
theorem Value.twins_brief {x : Value α} {y : Value β} (h : x.Twin y) : Twins x.brief y.brief := by
  match x, y with
  | .lit l, .lit m =>
    have hspellings := Literal.twins_spelling h
    rw [Value.brief, Value.brief, Twins, String.toList_ofList, String.toList_ofList]
    exact hspellings
  | .node a, .node b =>
    rw [Value.brief, Value.brief, (Node.twin_iff.1 h).1]
    exact .refl _
  | .list xs, .list ys =>
    have hitems := Value.twins_briefAll h
    rw [Value.brief, Value.brief]
    exact ((Twins.refl "[").append (.intercalate ", " hitems)).append (.refl "]")

theorem Value.twins_briefAll {xs : List (Value α)} {ys : List (Value β)}
    (h : Value.AllTwin xs ys) :
    List.Forall₂ Twins (Value.briefAll xs) (Value.briefAll ys) := by
  match xs, ys with
  | [], [] => exact .nil
  | x :: xs, y :: ys => exact .cons (Value.twins_brief h.1) (Value.twins_briefAll h.2)

end

/-! ## Lines -/

/-- Two listings come to their ends, in lines that are twins. -/
inductive TwinLines :
    Except (AccessError α) (List String) → Except (AccessError β) (List String) → Prop
  /-- The lines of both. -/
  | lines {plain marked : List String} (h : List.Forall₂ Twins plain marked) :
      TwinLines (.ok plain) (.ok marked)

theorem TwinLines.join {front back : Except (AccessError α) (List String)}
    {markedFront markedBack : Except (AccessError β) (List String)}
    (hfront : TwinLines front markedFront) (hback : TwinLines back markedBack) :
    TwinLines (joinLines front back) (joinLines markedFront markedBack) := by
  cases hfront with
  | lines hfront =>
    cases hback with
    | lines hback => exact .lines (List.rel_append hfront hback)

namespace Node

variable {a : Node α} {b : Node β}

/-- A slot has twins for lines on twins, or none on both. -/
theorem twinLines_slotLine (h : a.Twin b) (depth : Int) (slot : Slot) :
    TwinLines (a.slotLine depth slot) (b.slotLine depth slot) := by
  have hanswers := Value.keepsShape_twin.answersAlike_ofSlot h slot
  unfold slotLine
  simp only
  generalize (Property.ofSlot slot).read a = answer at hanswers
  generalize (Property.ofSlot slot).read b = markedAnswer at hanswers
  cases hanswers with
  | answered hvalue => exact .lines (.cons ((Twins.refl _).append (Value.twins_brief hvalue)) .nil)
  | refused => exact .lines .nil

theorem twinLines_slotsLines (h : a.Twin b) (depth : Int) (slots : List Slot) :
    TwinLines (a.slotsLines depth slots) (b.slotsLines depth slots) := by
  induction slots with
  | nil => exact .lines .nil
  | cons slot rest ih => exact (twinLines_slotLine h depth slot).join ih

theorem twinLines_ownLines (h : a.Twin b) (depth : Int) :
    TwinLines (a.ownLines depth) (b.ownLines depth) := by
  rw [ownLines, ownLines, (twin_iff.1 h).1]
  exact (TwinLines.lines (.cons (.refl _) .nil)).join (twinLines_slotsLines h depth _)

end Node

mutual

/-- Trees that are twins have twins for lines. -/
theorem Node.twinLines_listing {a : Node α} {b : Node β} (h : a.Twin b) (depth : Int) :
    TwinLines (a.listing depth) (b.listing depth) := by
  match a, b with
  | ⟨m, s, as⟩, ⟨n, t, bs⟩ =>
    have hown := Node.twinLines_ownLines h depth
    have hbelow := Value.twinLines_listings h.2 (depth + 1)
    rw [Node.listing, Node.listing]
    exact hown.join hbelow

theorem Value.twinLines_listings {xs : List (Value α)} {ys : List (Value β)}
    (h : Value.AllTwin xs ys) (depth : Int) :
    TwinLines (Value.listings depth xs) (Value.listings depth ys) := by
  match xs, ys with
  | [], [] => exact .lines .nil
  | .node a :: xs, .node b :: ys =>
    rw [Value.listings, Value.listings]
    exact (Node.twinLines_listing (a := a) (b := b) h.1 depth).join
      (Value.twinLines_listings h.2 depth)
  | .lit _ :: xs, .lit _ :: ys =>
    rw [Value.listings, Value.listings]
    exact Value.twinLines_listings h.2 depth
  | .list _ :: xs, .list _ :: ys =>
    rw [Value.listings, Value.listings]
    exact Value.twinLines_listings h.2 depth

end

/-! ## Blocks -/

namespace Command

/-- The characters of lines in code points are the lines that are not marked. -/
theorem map_charAt_zipWith_codesOf {lines marked : List String}
    (h : List.Forall₂ Twins lines marked) :
    (List.zipWith (fun line mark => codesOf line.toList mark.toList) lines marked).map
      (List.map charAt) = lines.map String.toList := by
  induction h with
  | nil => rfl
  | cons hline _ ih =>
    rw [List.zipWith_cons_cons, List.map_cons, List.map_cons, map_charAt_codesOf hline, ih]

/-- The block of a file comes to its end, from the tree and in code points.  The characters of the
code points are the lines. -/
theorem exists_codeBlock (path : Path) {root marked : Node Unit} (h : root.Twin marked) :
    ∃ lines codes, block path root = .ok lines ∧ codeBlock path root marked = .ok codes ∧
      codes.map (List.map charAt) = lines.map String.toList := by
  have hblocks : TwinLines (block path root) (block path marked) :=
    (TwinLines.lines (.cons (.refl _) .nil)).join (Node.twinLines_listing h 0)
  unfold codeBlock
  generalize block path root = plain at hblocks
  generalize block path marked = other at hblocks
  cases hblocks with
  | lines hlines => exact ⟨_, _, rfl, rfl, map_charAt_zipWith_codesOf hlines⟩

/-- Mapping a joined list maps its parts and what stands between them. -/
theorem map_intercalate {γ δ : Type} (f : γ → δ) (separator : List γ) (parts : List (List γ)) :
    (separator.intercalate parts).map f =
      (separator.map f).intercalate (parts.map (List.map f)) := by
  induction parts with
  | nil => rfl
  | cons part rest ih =>
    cases rest with
    | nil => rw [List.intercalate_singleton, List.map_singleton, List.intercalate_singleton]
    | cons next rest =>
      rw [List.intercalate_cons_cons, List.map_append, List.map_append, ih, List.map_cons,
        List.map_cons, List.map_cons, List.intercalate_cons_cons]

/-- The characters of lines in code points, put together, are the lines put together. -/
theorem map_charAt_intercalate {lines : List String} {codes : List (List Nat)}
    (h : codes.map (List.map charAt) = lines.map String.toList) :
    ([lineFeed].intercalate codes ++ [lineFeed]).map charAt =
      ("\n".intercalate lines ++ "\n").toList := by
  rw [List.map_append, map_intercalate, h, String.toList_append, String.toList_intercalate]
  rfl

end Command

end RubyTree
