import Mathlib.Data.List.Forall2
import RubyTree.Proofs.Binary64.ReadBack
import RubyTree.Proofs.Sexp.Words
import RubyTree.Proofs.Tree.Places
import RubyTree.Proofs.Tree.Throughout
import RubyTree.Sexp.Printer

/-!
# The lines of a printed tree

Only a node that stands below another one starts a line.  Literals never hold a line
break, whatever texts they stand for, so the lines of a printed tree are its places in
pre-order: each starts with the margin of its level, the opening of the style and the
name of the type.

Main results:

- `newline_not_mem_spelling`: a spelled literal stands on one line.
- `OpensLines` says which stretches the lines of a text start with behind its first
  one, and `OpensLines.splitOn` that these are the lines of the text cut at its breaks.
- `Node.opensLines_render`: a printed node opens a line for every place of its tree.
- `print_lines` puts this together for whole trees.
-/

namespace RubyTree

open RubyTree.Text RubyTree.Sexp

variable {α : Type}

namespace Sexp

/-! ## Literals -/

/-- Where a line break is not in a class of characters, a text of them stands on one line. -/
theorem newline_not_mem_of_class (p : Char → Bool) {text : List Char} (hbreak : p '\n' = false)
    (h : ∀ c ∈ text, p c = true) : '\n' ∉ text := by
  intro hmem
  rw [h '\n' hmem] at hbreak
  cases hbreak

/-- A spelled literal stands on one line. -/
theorem newline_not_mem_spelling (literal : Literal) : '\n' ∉ literal.spelling := by
  cases literal with
  | nil => decide
  | bool value => cases value <;> decide
  | int value =>
    have hdigits := (allDigits_toDigits value.natAbs).writesNumerals
    apply newline_not_mem_of_class writesNumerals (by decide)
    exact List.forall_mem_append.2 ⟨writesNumerals_sign _, hdigits⟩
  | float value =>
    cases value with
    | finite negative rank =>
      apply newline_not_mem_of_class writesNumerals (by decide)
      exact Binary64.writesNumerals_display negative rank
    | infinite negative => cases negative <;> decide
    | nan => decide
  | str value => exact newline_not_mem_encode value.toList
  | sym value =>
    rw [Literal.spelling, symbolSpelling]
    split
    · next hplain =>
      rw [List.mem_cons, not_or]
      refine ⟨by decide, ?_⟩
      apply newline_not_mem_of_class writesSymbols (by decide)
      exact (writesSymbols_of_plainSymbol hplain).2
    · rw [List.mem_cons, not_or]
      exact ⟨by decide, newline_not_mem_encode value.name.toList⟩

/-! ## Lines -/

/-- The line is the stretch, and behind it at most something that ends a name. -/
def StartsLine (start line : List Char) : Prop :=
  ∃ tail, line = start ++ tail ∧ ∀ c ∈ tail.head?, c = ' ' ∨ c = ',' ∨ c = ')'

/-- The lines of the text behind its first one start with the stretches, one each. -/
inductive OpensLines : List (List Char) → List Char → Prop
  /-- At the end of the text there are no more lines. -/
  | nil : OpensLines [] []
  /-- On with the line. -/
  | char {c : Char} {starts : List (List Char)} {text : List Char} (hc : c ≠ '\n')
      (h : OpensLines starts text) : OpensLines starts (c :: text)
  /-- The next line, with something behind its start that ends a name. -/
  | line {start : List Char} {c : Char} {starts : List (List Char)} {text : List Char}
      (hstart : '\n' ∉ start) (hc : c = '\n' ∨ c = ' ' ∨ c = ',' ∨ c = ')')
      (h : OpensLines starts (c :: text)) :
      OpensLines (start :: starts) ('\n' :: (start ++ c :: text))

/-- A stretch in front of a text belongs to its first line. -/
theorem splitOn_append {front text first : List Char} {lines : List (List Char)}
    (hfront : '\n' ∉ front) (h : text.splitOn '\n' = first :: lines) :
    (front ++ text).splitOn '\n' = (front ++ first) :: lines := by
  induction front with
  | nil => exact h
  | cons c front ih =>
    rw [List.mem_cons, not_or] at hfront
    have hc : ¬ (c == '\n') = true := by simpa using Ne.symm hfront.1
    rw [List.cons_append, List.splitOn_cons_eq_if_modifyHead, if_neg hc, ih hfront.2]
    rfl

namespace OpensLines

variable {starts more : List (List Char)} {text behind : List Char}

/-- A stretch without a break opens no lines. -/
theorem stretch {front : List Char} (hfront : '\n' ∉ front) (h : OpensLines starts text) :
    OpensLines starts (front ++ text) := by
  induction front with
  | nil => exact h
  | cons c front ih =>
    rw [List.mem_cons, not_or] at hfront
    exact .char (Ne.symm hfront.1) (ih hfront.2)

/-- The lines of a text come before those of a text behind it. -/
theorem append (h : OpensLines starts text) (hbehind : OpensLines more behind) :
    OpensLines (starts ++ more) (text ++ behind) := by
  induction h with
  | nil => exact hbehind
  | char hc _ ih => exact .char hc ih
  | line hstart hc _ ih =>
    rw [List.cons_append, List.cons_append, List.append_assoc]
    exact .line hstart hc ih

/-- Cut at its breaks, a text has a first line, and then one for each stretch that starts with
it. -/
theorem splitOn (h : OpensLines starts text) :
    ∃ first lines, text.splitOn '\n' = first :: lines ∧
      (∀ c ∈ first.head?, text.head? = some c ∧ c ≠ '\n') ∧
      List.Forall₂ StartsLine starts lines := by
  induction h with
  | nil => exact ⟨[], [], rfl, by simp, .nil⟩
  | @char c starts text hc _ ih =>
    rcases ih with ⟨first, lines, hsplit, -, hlines⟩
    have hfront : '\n' ∉ [c] := by simpa using Ne.symm hc
    exact ⟨c :: first, lines, splitOn_append hfront hsplit, by simpa using hc, hlines⟩
  | @line start c starts text hstart hc _ ih =>
    rcases ih with ⟨first, lines, hsplit, hfirst, hlines⟩
    refine ⟨[], (start ++ first) :: lines, ?_, by simp, .cons ⟨first, rfl, ?_⟩ hlines⟩
    · rw [List.splitOn_cons_eq_if_modifyHead, if_pos (by decide), splitOn_append hstart hsplit]
    · intro d hd
      rcases hfirst d hd with ⟨hhead, hbreak⟩
      obtain rfl : c = d := Option.some.inj hhead
      exact hc.resolve_left hbreak

end OpensLines

/-! ## Starts of lines -/

/-- What the line of a node at a depth starts with. -/
def lineStart (options : Options) (depth : Nat) (type : NodeType) : List Char :=
  options.margin depth ++ options.style.opening ++ options.typeName type

/-- The starts of the lines of some places, the root of which has the given depth. -/
def lineStarts (options : Options) (depth : Nat) (places : List (List Nat × Node α)) :
    List (List Char) :=
  places.map fun place => lineStart options (depth + place.1.length) place.2.type

/-- The line of a node comes before those of the places below it. -/
theorem lineStarts_places (options : Options) (depth : Nat) (node : Node α) :
    lineStarts options depth node.places =
      lineStart options depth node.type ::
        lineStarts options depth (Value.placesAmong 0 node.children) := by
  rcases node with ⟨mark, type, children⟩
  rfl

/-- Seen from the parent, the places of a child are one level further down. -/
theorem lineStarts_below (options : Options) (depth position : Nat)
    (places : List (List Nat × Node α)) :
    lineStarts options depth (places.map fun place => (position :: place.1, place.2)) =
      lineStarts options (depth + 1) places := by
  have hdepth : ∀ n, depth + 1 + n = depth + (n + 1) := by omega
  simp [lineStarts, hdepth]

/-- The name of the type holds no line break. -/
def OnOneLine (type : NodeType) : Prop :=
  '\n' ∉ type.name.toList

theorem newline_not_mem_lineStart {type : NodeType} (h : OnOneLine type) (options : Options)
    (depth : Nat) : '\n' ∉ lineStart options depth type := by
  have hmargin : '\n' ∉ options.margin depth := by
    intro hmem
    exact absurd (List.eq_of_mem_replicate hmem) (by decide)
  have hopening : '\n' ∉ options.style.opening := by
    cases options.style <;> decide
  have hname : '\n' ∉ options.typeName type := by
    unfold Options.typeName
    split
    · intro hmem
      rcases List.mem_map.1 hmem with ⟨c, hc, hdash⟩
      split at hdash
      · cases hdash
      · exact h (hdash ▸ hc)
    · exact h
  simp only [lineStart, List.mem_append, not_or]
  exact ⟨⟨hmargin, hopening⟩, hname⟩

end Sexp

/-! ## Printed nodes -/

/-- Behind the name of a node something follows that ends a name. -/
theorem Value.exists_mark (options : Options) (depth : Nat) (children : List (Value α)) :
    ∃ c tail, Value.renderAll options depth children ++ [')'] = c :: tail ∧
      (c = '\n' ∨ c = ' ' ∨ c = ',' ∨ c = ')') := by
  cases children with
  | nil => exact ⟨')', [], rfl, by simp⟩
  | cons value rest =>
    cases value with
    | lit literal =>
      rw [Value.renderAll]
      cases options.style with
      | sexp => exact ⟨' ', _, rfl, by simp⟩
      | inspect => exact ⟨',', _, rfl, by simp⟩
    | node node =>
      rw [Value.renderAll]
      cases options.style with
      | sexp => exact ⟨'\n', _, rfl, by simp⟩
      | inspect => exact ⟨',', _, rfl, by simp⟩
    | list items =>
      rw [Value.renderAll]
      cases options.style with
      | sexp => exact ⟨' ', _, rfl, by simp⟩
      | inspect => exact ⟨',', _, rfl, by simp⟩

variable {options : Options}

mutual

/-- Behind a break, a printed node opens a line for every place of its tree. -/
theorem Node.opensLines_render (node : Node α) (depth : Nat)
    (h : node.Holds OnOneLine fun _ => True) :
    OpensLines (lineStarts options depth node.places) ('\n' :: node.render options depth) := by
  match node with
  | ⟨mark, type, children⟩ =>
    rcases Value.exists_mark options (depth + 1) children with ⟨c, tail, htail, hc⟩
    have hchildren := Value.opensLines_renderAll children 0 depth h.2
    have hclosing : OpensLines [] [')'] := .char (by decide) .nil
    have hbelow := hchildren.append hclosing
    rw [htail, List.append_nil] at hbelow
    rw [lineStarts_places, Node.render, List.append_assoc _ _ [')'], htail]
    exact .line (newline_not_mem_lineStart h.1 options depth) hc hbelow

/-- Printed children open a line for every place among them. -/
theorem Value.opensLines_renderAll (values : List (Value α)) (first depth : Nat)
    (h : Value.AllHold OnOneLine (fun _ => True) values) :
    OpensLines (lineStarts options depth (Value.placesAmong first values))
      (Value.renderAll options (depth + 1) values) := by
  match values with
  | [] => exact .nil
  | .lit literal :: rest =>
    have hseparator : '\n' ∉ options.style.separator := by
      cases options.style <;> decide
    have hrest := Value.opensLines_renderAll rest (first + 1) depth h.2
    rw [Value.renderAll, List.append_assoc]
    exact (hrest.stretch (newline_not_mem_spelling literal)).stretch hseparator
  | .node node :: rest =>
    have hnode := Node.opensLines_render node (depth + 1) h.1
    have hrest := Value.opensLines_renderAll rest (first + 1) depth h.2
    have hstarts : lineStarts options depth (Value.placesAmong first (.node node :: rest)) =
        lineStarts options (depth + 1) node.places ++
          lineStarts options depth (Value.placesAmong (first + 1) rest) := by
      rw [Value.placesAmong, lineStarts, List.map_append, ← lineStarts, ← lineStarts,
        lineStarts_below]
    have hlines := hnode.append hrest
    rw [hstarts, Value.renderAll]
    cases options.style with
    | sexp => exact hlines
    | inspect => exact .char (by decide) hlines
  | .list items :: rest => exact h.elim

end

/-! ## Whole trees -/

/-- The lines of a printed tree start with those of its places, one each. -/
theorem Node.forall₂_print {node : Node α} (h : node.Holds OnOneLine fun _ => True) :
    List.Forall₂ StartsLine (lineStarts options 0 node.places)
      ((node.print options).toList.splitOn '\n') := by
  rcases (Node.opensLines_render node 0 h).splitOn with ⟨first, lines, hsplit, -, hlines⟩
  rw [List.splitOn_cons_eq_if_modifyHead, if_pos (by decide)] at hsplit
  rw [Node.print, String.toList_ofList, (List.cons.inj hsplit).2]
  exact hlines

/-- A printed tree without lists among its values has as many lines as nodes.  The line with the
number of a node in pre-order starts with the margin for the length of its address, the opening of
the style and the name of its type. -/
theorem print_lines {node : Node α} (options : Options) (h : node.Holds OnOneLine fun _ => True) :
    let lines := (node.print options).toList.splitOn '\n'
    lines.length = 1 + node.descendants.length ∧
      ∀ i < 1 + node.descendants.length, ∃ address other line,
        (node :: node.descendants)[i]? = some other ∧
        node.places[i]? = some (address, other) ∧ node.at? address = some other ∧
        lines[i]? = some line ∧
        StartsLine (List.replicate (options.indent * address.length).toNat ' ' ++
          options.style.opening ++ options.typeName other.type) line := by
  intro lines
  have hlines : List.Forall₂ StartsLine (lineStarts options 0 node.places) lines :=
    Node.forall₂_print h
  have hnodes := Node.map_snd_places node
  have hcount : node.places.length = 1 + node.descendants.length := by
    rw [← List.length_map Prod.snd, hnodes, List.length_cons, Nat.add_comm]
  have hlength : lines.length = 1 + node.descendants.length := by
    rw [← hlines.length_eq, lineStarts, List.length_map, hcount]
  refine ⟨hlength, ?_⟩
  intro i hi
  have hplace : i < node.places.length := by omega
  have hline : i < lines.length := by omega
  have hstart := (List.forall₂_map_left_iff.1 hlines).get hplace hline
  refine ⟨node.places[i].1, node.places[i].2, lines[i], ?_, List.getElem?_eq_getElem hplace,
    Node.mem_places_iff.1 (List.getElem_mem hplace), List.getElem?_eq_getElem hline, ?_⟩
  · rw [← hnodes, List.getElem?_map, List.getElem?_eq_getElem hplace, Option.map_some]
  · rw [Nat.zero_add] at hstart
    exact hstart

/-- A string with a line break in it, in a node below another one: the second line is the one of
this node. -/
theorem print_lines_break :
    let node : Node Unit := ⟨(), .known .send,
      [.node ⟨(), .known .str, [.lit (.str "a\nb")]⟩, .lit (.sym ⟨"c"⟩)]⟩
    let lines := (node.print .standard).toList.splitOn '\n'
    lines.length = 2 ∧ ∃ line, lines[1]? = some line ∧
      StartsLine [' ', ' ', '(', 's', 't', 'r'] line := by
  intro node lines
  have hsend : OnOneLine (.known .send) := by
    unfold OnOneLine
    decide
  have hstr : OnOneLine (.known .str) := by
    unfold OnOneLine
    decide
  have hholds : node.Holds OnOneLine fun _ => True :=
    ⟨hsend, ⟨hstr, trivial, trivial⟩, trivial, trivial⟩
  have hlines := print_lines .standard hholds
  rcases hlines.2 1 (by decide) with ⟨address, other, line, -, hplace, -, hline, hstart⟩
  cases hplace
  exact ⟨hlines.1, line, hline, hstart⟩

end RubyTree
