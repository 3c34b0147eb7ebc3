import RubyTree.Proofs.Sexp.SecondReading

/-!
# The inspected form identifies a tree

Nothing reads the inspected form, so a tree is recovered from the printed text by
cutting it.  A type name ends at the first comma or closing parenthesis, and so does
every literal without quotes; a quoted text ends at its own closing quote.  Behind each
of them stands a comma or a closing parenthesis, and the character behind a comma tells
a literal from a node.

Main results:

- `Literal.spelling_injective`: different literals are spelled differently.
- `Literal.spelling_append_inj`: the end of a spelled literal is known from the text.
- `render_append_inj` cuts a printed node off a text, and `inspect_injective` is the
  statement for whole trees.
-/

namespace RubyTree

open RubyTree.Text RubyTree.Sexp

/-! ## Spelled literals -/

namespace Literal

/-- Literals that are spelled alike are the same.  Scanning gives back those that can be written;
only the infinities are left, which are told apart by their signs. -/
theorem spelling_injective {a b : Literal} (ha : a ≠ .float .nan) (hb : b ≠ .float .nan)
    (h : a.spelling = b.spelling) : a = b := by
  have hends : EndsWord [] := by simp [EndsWord]
  have hsame : a.isSpellable = true ↔ b.isSpellable = true := by
    rcases scansAs_spelling ha hends .nil with ⟨lexeme, hscan, hplaced⟩
    rcases scansAs_spelling hb hends .nil with ⟨other, hother, hplaced'⟩
    rw [h] at hscan
    rw [hscan.unique hother] at hplaced
    simpa [WellPlaced] using hplaced.symm.trans hplaced'
  by_cases hspellable : a.isSpellable = true
  · rcases ScansAs.nil.literal hspellable hends with ⟨lexeme, hleaf, hscan⟩
    rcases ScansAs.nil.literal (hsame.1 hspellable) hends with ⟨other, hleaf', hother⟩
    rw [h] at hscan
    obtain rfl : lexeme = other := (List.cons.inj (hscan.unique hother)).1
    exact Option.some.inj (hleaf.symm.trans hleaf')
  · rcases not_forall_not.1 (mt (isSpellable_iff_of_ne_nan ha).2 hspellable) with ⟨negative, rfl⟩
    rcases not_forall_not.1 (mt (isSpellable_iff_of_ne_nan hb).2 (mt hsame.2 hspellable))
      with ⟨negative', rfl⟩
    revert h
    cases negative <;> cases negative' <;> decide

end Literal

/-! ## Cutting a literal off a text -/

/-- The character ends no type name and no literal without quotes, and is no quote. -/
def isBare (c : Char) : Bool :=
  !([',', ')', '"'].contains c)

/-- Where none of the three marks is in a class of characters, its characters are bare. -/
theorem isBare_of_class {p : Char → Bool} (hmarks : ([',', ')', '"'].all fun d => !p d) = true)
    {c : Char} (h : p c = true) : isBare c = true := by
  rw [isBare, Bool.not_eq_true', ← Bool.not_eq_true]
  intro hmem
  have hmark := List.all_eq_true.1 hmarks c (by simpa using hmem)
  simp [h] at hmark

/-- The text is at its end, or goes on with a comma or a closing parenthesis. -/
def EndsPart (rest : List Char) : Prop :=
  ∀ c ∈ rest.head?, c = ',' ∨ c = ')'

theorem EndsPart.not_isBare {rest : List Char} (h : EndsPart rest) :
    ∀ c ∈ rest.head?, isBare c = false := by
  intro c hc
  rcases h c hc with rfl | rfl <;> rfl

namespace Literal

/-- A literal is spelled with bare characters, or a quoted text stands behind them. -/
theorem spelling_eq {a : Literal} (h : a ≠ .float .nan) :
    (∀ c ∈ a.spelling, isBare c = true) ∨
      ∃ lead text, (∀ c ∈ lead, isBare c = true) ∧ a.spelling = lead ++ encode text := by
  cases a with
  | nil => exact .inl (List.all_eq_true.1 (by decide))
  | bool value => cases value <;> exact .inl (List.all_eq_true.1 (by decide))
  | int value =>
    have hdigits := (allDigits_toDigits value.natAbs).writesNumerals
    exact .inl fun c hc => isBare_of_class (by decide)
      (List.forall_mem_append.2 ⟨writesNumerals_sign _, hdigits⟩ c hc)
  | float value =>
    left
    cases value with
    | finite negative rank =>
      exact fun c hc => isBare_of_class (by decide)
        (Binary64.writesNumerals_display negative rank c hc)
    | infinite negative => cases negative <;> exact List.all_eq_true.1 (by decide)
    | nan => exact absurd rfl h
  | str value => exact .inr ⟨[], value.toList, by simp, rfl⟩
  | sym value =>
    simp only [spelling, symbolSpelling]
    split
    · next hplain =>
      left
      exact List.forall_mem_cons.2 ⟨by decide, fun c hc =>
        isBare_of_class (by decide) ((writesSymbols_of_plainSymbol hplain).2 c hc)⟩
    · exact .inr ⟨[':'], value.name.toList, List.forall_mem_singleton.2 rfl, rfl⟩

/-- A text is cut in one way only into a spelled literal and something that ends it. -/
theorem spelling_append_inj {a b : Literal} (ha : a ≠ .float .nan) (hb : b ≠ .float .nan)
    {rest more : List Char} (hrest : EndsPart rest) (hmore : EndsPart more)
    (h : a.spelling ++ rest = b.spelling ++ more) : a = b ∧ rest = more := by
  have hquote : ∀ text tail, ∀ c ∈ (encode text ++ tail).head?, isBare c = false := by
    rintro text tail c ⟨⟩
    rfl
  rcases spelling_eq ha with hbare | ⟨lead, text, hlead, htext⟩
  · rcases spelling_eq hb with hbare' | ⟨lead', text', hlead', htext'⟩
    · rcases run_append_inj hbare hbare' hrest.not_isBare hmore.not_isBare h with ⟨hspelling, htail⟩
      exact ⟨spelling_injective ha hb hspelling, htail⟩
    · rw [htext', List.append_assoc] at h
      have htail := (run_append_inj hbare hlead' hrest.not_isBare (hquote _ _) h).2
      -- a quote neither separates nor closes
      rcases hrest '"' (by rw [htail]; rfl) with hc | hc <;> cases hc
  · rw [htext, List.append_assoc] at h
    rcases spelling_eq hb with hbare' | ⟨lead', text', hlead', htext'⟩
    · have htail := (run_append_inj hlead hbare' (hquote _ _) hmore.not_isBare h).2
      rcases hmore '"' (by rw [← htail]; rfl) with hc | hc <;> cases hc
    · rw [htext', List.append_assoc] at h
      rcases run_append_inj hlead hlead' (hquote _ _) (hquote _ _) h with ⟨rfl, hquoted⟩
      rcases encode_append_inj hquoted with ⟨rfl, htail⟩
      exact ⟨spelling_injective ha hb (htext.trans htext'.symm), htail⟩

end Literal

/-! ## Cutting a node off a text -/

/-- The name of the type holds neither a comma nor a closing parenthesis. -/
def NodeType.EndsAtMarks (type : NodeType) : Prop :=
  ',' ∉ type.name.toList ∧ ')' ∉ type.name.toList

/-- A text is cut in one way only into the name of a type and something that ends it. -/
theorem NodeType.name_append_inj {a b : NodeType} (ha : a.EndsAtMarks) (hb : b.EndsAtMarks)
    {rest more : List Char} (hrest : EndsPart rest) (hmore : EndsPart more)
    (h : a.name.toList ++ rest = b.name.toList ++ more) : a = b ∧ rest = more := by
  have hname : ∀ {type : NodeType}, type.EndsAtMarks →
      ∀ c ∈ type.name.toList, !([',', ')'].contains c) := by
    rintro type ⟨hcomma, hclosing⟩ c hc
    have hne : c ≠ ',' ∧ c ≠ ')' :=
      ⟨ne_of_mem_of_not_mem hc hcomma, ne_of_mem_of_not_mem hc hclosing⟩
    simp [hne]
  have hends : ∀ {text : List Char}, EndsPart text →
      ∀ c ∈ text.head?, (!([',', ')'].contains c)) = false := by
    intro text htext c hc
    rcases htext c hc with rfl | rfl <;> rfl
  rcases run_append_inj (p := fun c => !([',', ')'].contains c)) (hname ha) (hname hb) (hends hrest)
    (hends hmore) h with ⟨heq, htail⟩
  exact ⟨NodeType.name_injective (String.toList_injective heq), htail⟩

variable {α β : Type} {options : Options} {depth : Nat}

/-- Behind a type or a child stands a comma or the closing parenthesis of the node. -/
theorem endsPart_renderAll (hstyle : options.style = .inspect) (children : List (Value α))
    (rest : List Char) : EndsPart (Value.renderAll options depth children ++ ')' :: rest) := by
  intro c hc
  cases children with
  | nil =>
    cases hc
    exact .inr rfl
  | cons child children =>
    left
    cases child with
    | lit literal =>
      simp only [Value.renderAll, hstyle] at hc
      cases hc
      rfl
    | node node =>
      simp only [Value.renderAll, hstyle] at hc
      cases hc
      rfl
    | list items =>
      simp only [Value.renderAll, hstyle] at hc
      cases hc
      rfl

mutual

/-- A text is cut in one way only into an inspected node and something behind it. -/
theorem render_append_inj (hstyle : options.style = .inspect) (hnames : options.dasherize = false)
    (depth : Nat) (a : Node α) (b : Node β) (ha : a.Holds NodeType.EndsAtMarks (· ≠ .float .nan))
    (hb : b.Holds NodeType.EndsAtMarks (· ≠ .float .nan)) {rest more : List Char}
    (h : a.render options depth ++ rest = b.render options depth ++ more) :
    a.bare = b.bare ∧ rest = more := by
  match a, b with
  | ⟨mark, type, children⟩, ⟨mark', type', children'⟩ =>
    rcases ha with ⟨htype, hchildren⟩
    rcases hb with ⟨htype', hchildren'⟩
    have hcut : type.name.toList ++ (Value.renderAll options (depth + 1) children ++ ')' :: rest) =
        type'.name.toList ++ (Value.renderAll options (depth + 1) children' ++ ')' :: more) := by
      simpa [Node.render, Options.typeName, hnames] using h
    obtain ⟨rfl, htail⟩ := NodeType.name_append_inj htype htype'
      (endsPart_renderAll hstyle children rest) (endsPart_renderAll hstyle children' more) hcut
    obtain ⟨hbare, hrest⟩ :=
      renderAll_append_inj hstyle hnames (depth + 1) children children' hchildren hchildren' htail
    exact ⟨by rw [Node.bare, Node.map, hbare, Node.bare, Node.map], hrest⟩

/-- A text is cut in one way only into the inspected children of a node and its closing
parenthesis. -/
theorem renderAll_append_inj (hstyle : options.style = .inspect)
    (hnames : options.dasherize = false) (depth : Nat) (as : List (Value α)) (bs : List (Value β))
    (ha : Value.AllHold NodeType.EndsAtMarks (· ≠ .float .nan) as)
    (hb : Value.AllHold NodeType.EndsAtMarks (· ≠ .float .nan) bs) {rest more : List Char}
    (h : Value.renderAll options depth as ++ ')' :: rest =
      Value.renderAll options depth bs ++ ')' :: more) :
    Value.mapAll (fun _ => ()) as = Value.mapAll (fun _ => ()) bs ∧ rest = more := by
  match as, bs with
  | [], [] => exact ⟨rfl, (List.cons.inj h).2⟩
  | .lit a :: as, .lit b :: bs =>
    simp only [Value.renderAll, List.append_assoc] at h
    obtain ⟨rfl, htail⟩ := Literal.spelling_append_inj ha.1 hb.1
      (endsPart_renderAll hstyle as rest) (endsPart_renderAll hstyle bs more)
      (List.append_cancel_left h)
    obtain ⟨hbare, hrest⟩ := renderAll_append_inj hstyle hnames depth as bs ha.2 hb.2 htail
    exact ⟨by rw [Value.mapAll, hbare]; rfl, hrest⟩
  | .node a :: as, .node b :: bs =>
    simp only [Value.renderAll, List.append_assoc] at h
    obtain ⟨hnode, htail⟩ := render_append_inj hstyle hnames depth a b ha.1 hb.1
      (List.append_cancel_left h)
    obtain ⟨hbare, hrest⟩ := renderAll_append_inj hstyle hnames depth as bs ha.2 hb.2 htail
    refine ⟨?_, hrest⟩
    rw [Value.mapAll, Value.mapAll, hbare, Value.map, Value.map, ← Node.bare, hnode, Node.bare]
  -- the second character tells a literal from a node, and the first one either from the end
  | [], .lit b :: bs => simp [Value.renderAll, hstyle, Style.separator] at h
  | [], .node b :: bs => simp [Value.renderAll, hstyle, Style.lineBreak] at h
  | .lit a :: as, [] => simp [Value.renderAll, hstyle, Style.separator] at h
  | .node a :: as, [] => simp [Value.renderAll, hstyle, Style.lineBreak] at h
  | .lit a :: as, .node b :: bs =>
    simp [Value.renderAll, hstyle, Style.separator, Style.lineBreak] at h
  | .node a :: as, .lit b :: bs =>
    simp [Value.renderAll, hstyle, Style.separator, Style.lineBreak] at h
  | .list _ :: _, _ => cases ha
  | _, .list _ :: _ => cases hb

end

/-! ## Whole trees -/

/-- Two trees with the same inspected form have the same shape, types and literals, if the names of
their types hold neither a comma nor a closing parenthesis, and each of their literals that is a
binary value is a number. -/
theorem inspect_injective (a : Node α) (b : Node β)
    (ha : a.Holds NodeType.EndsAtMarks (· ≠ .float .nan))
    (hb : b.Holds NodeType.EndsAtMarks (· ≠ .float .nan)) (h : a.inspect = b.inspect) :
    a.bare = b.bare := by
  have htext : a.render (.ofStyle .inspect) 0 ++ [] = b.render (.ofStyle .inspect) 0 ++ [] := by
    rw [List.append_nil, List.append_nil]
    exact String.ofList_injective h
  exact (render_append_inj rfl rfl 0 a b ha hb htext).1

/-- A type name with an opening parenthesis, a text and a symbol that hold the marks between parts,
an infinity and the negative zero all tell where they end. -/
theorem inspect_injective_marks :
    let tree : (α : Type) → α → Node α := fun _ mark => ⟨mark, .ofName "odd (name",
      [.lit (.str "\", :a)"), .node ⟨mark, .known .sym, [.lit (.sym ⟨"b, c)"⟩)]⟩,
        .lit (.float (.infinite true)), .lit (.float (.finite true ⟨0, by decide⟩)),
        .lit (.bool true)]⟩
    (tree Nat 7).Holds NodeType.EndsAtMarks (· ≠ .float .nan) ∧
      (tree Unit ()).Holds NodeType.EndsAtMarks (· ≠ .float .nan) ∧
      (tree Nat 7).inspect = (tree Unit ()).inspect ∧ (tree Nat 7).bare = (tree Unit ()).bare := by
  intro tree
  have hsym : (NodeType.known .sym).EndsAtMarks := by
    unfold NodeType.EndsAtMarks
    decide +kernel
  have hodd : (NodeType.ofName "odd (name").EndsAtMarks := by
    unfold NodeType.EndsAtMarks
    rw [NodeType.name_ofName]
    decide +kernel
  have hholds : ∀ (α : Type) (mark : α),
      (tree α mark).Holds NodeType.EndsAtMarks (· ≠ .float .nan) := by
    intro α mark
    simp [tree, Node.Holds, Value.AllHold, hsym, hodd]
  have htext : (tree Nat 7).inspect = (tree Unit ()).inspect := rfl
  exact ⟨hholds Nat 7, hholds Unit (), htext,
    inspect_injective _ _ (hholds Nat 7) (hholds Unit ()) htext⟩

end RubyTree
