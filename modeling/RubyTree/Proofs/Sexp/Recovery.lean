import Mathlib.Data.List.Infix
import RubyTree.Proofs.Sexp.Grammar

/-!
# Recovery in step with the parentheses

The reader goes on behind every problem.  What it reports, and where it stops, can
be told without its frames, by counting parentheses: reading ends at the partner
of the first parenthesis, every token is reported at most for what stands before
it, and the parentheses without a partner are reported at the end of the text.

Main results:

- `partner?` is the place of the matching parenthesis by plain counting.
- `complaints` are the reports on single tokens, in order, and `unclosedReports` those
  on parentheses without a partner, innermost first.
- `keepsToParens_readItems`: the reader keeps to both for every stack of open nodes.
- `readRoot_reports`: what is reported on the tokens of a text.
-/

namespace RubyTree.Sexp

open RubyTree.Text

/-! ## Counting parentheses -/

/-- What a lexeme adds to the number of open parentheses. -/
def Lexeme.weight : Lexeme → Int
  | .opening => 1
  | .closing => -1
  | _ => 0

/-- The number of parentheses that the tokens open, less the number of those that they close. -/
def balance : List Token → Int
  | [] => 0
  | token :: rest => token.lexeme.weight + balance rest

/-- The place of the first token with which the balance comes to a level. -/
def reach? (level : Int) (tokens : List Token) : Option Nat :=
  (List.range tokens.length).find? fun place => balance (tokens.take (place + 1)) = level

/-- The place of the parenthesis that closes the first one of the tokens. -/
def partner? (tokens : List Token) : Option Nat :=
  reach? 0 tokens

@[simp] theorem reach?_nil (level : Int) : reach? level [] = none := rfl

/-- A level is reached with the first token, or behind it from the weight of the first one on. -/
theorem reach?_cons (level : Int) (token : Token) (rest : List Token) :
    reach? level (token :: rest) =
      if token.lexeme.weight = level then some 0
      else (reach? (level - token.lexeme.weight) rest).map (· + 1) := by
  have hfirst : balance ((token :: rest).take (0 + 1)) = token.lexeme.weight := by
    simp [balance]
  have hlater : ∀ place, balance ((token :: rest).take (place + 1 + 1)) =
      token.lexeme.weight + balance (rest.take (place + 1)) := by
    intro place
    simp [balance]
  unfold reach?
  rw [List.length_cons, List.range_succ_eq_map, List.find?_cons, hfirst]
  by_cases h : token.lexeme.weight = level
  · simp [h]
  · simp only [h, decide_false, if_false, List.find?_map]
    congr 2
    funext place
    simp only [Function.comp_apply, Nat.succ_eq_add_one, hlater]
    exact decide_eq_decide.2 (by omega)

/-- A level that is not the weight of the first token is reached behind it. -/
theorem reach?_cons_of_ne {level : Int} {token : Token} (rest : List Token)
    (h : token.lexeme.weight ≠ level) :
    reach? level (token :: rest) =
      (reach? (level - token.lexeme.weight) rest).map (· + 1) := by
  rw [reach?_cons, if_neg h]

/-! ## Reports on single tokens -/

/-- The report on the first of the tokens behind a lexeme: a parenthesis wants a type behind it,
and elsewhere only the words of literals may stand. -/
def complaint? (size : Nat) (before : Lexeme) (tokens : List Token) : Option Diagnostic :=
  match tokens.head?.map Token.lexeme with
  | some (.identifier word) =>
    if before = .opening ∨ word ∈ ["nil", "true", "false"] then none
    else tokens.head?.map fun here =>
      .error .unexpectedToken here.range (some (quotedString here.text))
  | _ =>
    if before = .opening then some (.error .expectedNodeType (firstRange size tokens) none)
    else none

/-- The reports on the tokens behind each token, in their order. -/
def complaints (size : Nat) (tokens : List Token) : List Diagnostic :=
  tokens.tails.filterMap fun
    | [] => none
    | before :: rest => complaint? size before.lexeme rest

@[simp] theorem complaints_nil (size : Nat) : complaints size [] = [] := rfl

/-- The first report is on what stands behind the first token. -/
theorem complaints_cons (size : Nat) (token : Token) (rest : List Token) :
    complaints size (token :: rest) =
      (complaint? size token.lexeme rest).toList ++ complaints size rest := by
  rw [complaints, List.tails_cons, List.filterMap_cons]
  cases h : complaint? size token.lexeme rest <;> simp [complaints, h]

/-- Behind everything but an opening parenthesis the same is reported. -/
theorem complaint?_of_ne {size : Nat} {before : Lexeme} (h : before ≠ .opening)
    (tokens : List Token) : complaint? size before tokens = complaint? size .closing tokens := by
  simp [complaint?, h]

/-! ## Reports on parentheses without a partner -/

/-- The report on a parenthesis that is not closed. -/
def unclosedReport (opening : Range) : Diagnostic :=
  .error .unbalancedParen opening (some "Missing `)`.")

/-- The reports on the parentheses without a partner, innermost first. -/
def unclosedReports (tokens : List Token) : List Diagnostic :=
  (tokens.tails.filterMap fun
    | [] => none
    | token :: rest =>
      if token.lexeme = .opening ∧ partner? (token :: rest) = none then
        some (unclosedReport token.range)
      else none).reverse

@[simp] theorem unclosedReports_nil : unclosedReports [] = [] := rfl

/-- What is no opening parenthesis needs no partner. -/
theorem unclosedReports_cons_of_ne {token : Token} (h : token.lexeme ≠ .opening)
    (rest : List Token) : unclosedReports (token :: rest) = unclosedReports rest := by
  simp [unclosedReports, h]

/-- A parenthesis is reported behind those that stand further in. -/
theorem unclosedReports_cons_opening {token : Token} (h : token.lexeme = .opening)
    (rest : List Token) :
    unclosedReports (token :: rest) =
      unclosedReports rest ++
        if reach? (-1) rest = none then [unclosedReport token.range] else [] := by
  have hpartner : partner? (token :: rest) = (reach? (-1) rest).map (· + 1) := by
    rw [partner?, reach?_cons_of_ne rest (by simp [h, Lexeme.weight])]
    simp [h, Lexeme.weight]
  rw [unclosedReports, List.tails_cons, List.filterMap_cons]
  by_cases hreach : reach? (-1) rest = none <;>
    simp [h, hpartner, hreach, unclosedReports]

/-- The reports on open nodes whose levels the tokens do not reach.  The first one is closed at
the level, and each of the others one level lower. -/
def openReports (tokens : List Token) : Int → List Range → List Diagnostic
  | _, [] => []
  | level, opening :: outer =>
    (if reach? level tokens = none then [unclosedReport opening] else []) ++
      openReports tokens (level - 1) outer

/-- At the end of the text every open node is reported. -/
theorem openReports_nil (level : Int) (openings : List Range) :
    openReports [] level openings = openings.map unclosedReport := by
  induction openings generalizing level with
  | nil => rfl
  | cons opening outer ih => simp [openReports, ih]

/-- A token above all levels shifts them by its weight. -/
theorem openReports_cons {token : Token} {level : Int} (h : level < token.lexeme.weight)
    (rest : List Token) (openings : List Range) :
    openReports (token :: rest) level openings =
      openReports rest (level - token.lexeme.weight) openings := by
  induction openings generalizing level with
  | nil => rfl
  | cons opening outer ih =>
    have hshift : level - token.lexeme.weight - 1 = level - 1 - token.lexeme.weight := by omega
    simp only [openReports, reach?_cons_of_ne rest (show token.lexeme.weight ≠ level by omega),
      Option.map_eq_none_iff, hshift]
    rw [ih (by omega)]

/-! ## What reading reports -/

/-- The reports on tokens that stand behind a lexeme. -/
def reportsBehind (size : Nat) (before : Lexeme) (tokens : List Token) : List Diagnostic :=
  (complaint? size before tokens).toList ++ complaints size tokens

/-- The report on the first token stands in front of those behind it. -/
theorem reportsBehind_cons (size : Nat) (before : Lexeme) (token : Token) (rest : List Token) :
    reportsBehind size before (token :: rest) =
      (complaint? size before (token :: rest)).toList ++ reportsBehind size token.lexeme rest := by
  rw [reportsBehind, complaints_cons, reportsBehind]

/-- A reading of the tokens behind a lexeme, within some open nodes that are given innermost first
by their places, keeps to the parentheses: it stops behind the one that closes the last of the
nodes, with the reports on the single tokens up to there.  If there is none, it reports on all
tokens, then the parentheses among them without a partner, then the open nodes without one. -/
structure KeepsToParens (size : Nat) (before : Lexeme) (openings : List Range)
    (tokens : List Token) (reading : Reading) : Prop where
  /-- The last of the nodes is closed. -/
  closed : ∀ place, reach? (-openings.length) tokens = some place →
    reading.rest = tokens.drop (place + 1) ∧
      reading.diagnostics = reportsBehind size before (tokens.take (place + 1))
  /-- The text ends before. -/
  unclosed : reach? (-openings.length) tokens = none →
    reading.rest = [] ∧ reading.diagnostics =
      reportsBehind size before tokens ++
        (unclosedReports tokens ++ openReports tokens (-1) openings)

namespace KeepsToParens

variable {size : Nat} {before : Lexeme} {openings : List Range} {opening : Range} {token : Token}
  {rest : List Token} {reading : Reading}

/-- At the end of the text all open nodes are reported. -/
theorem nil {node : Option (Node Unit)} (hbefore : before ≠ .opening) :
    KeepsToParens size before openings [] ⟨node, [], openings.map unclosedReport⟩ where
  closed := by simp
  unclosed _ := by
    refine ⟨rfl, ?_⟩
    simp [reportsBehind, complaint?, hbefore, openReports_nil]

/-- The parenthesis that closes the only open node is the last token that is read. -/
theorem closing_last {node : Option (Node Unit)} (h : token.lexeme = .closing) :
    KeepsToParens size .closing [opening] (token :: rest) ⟨node, rest, []⟩ := by
  have hreach : reach? (-([opening].length : Int)) (token :: rest) = some 0 := by
    rw [reach?_cons, if_pos (by simp [h, Lexeme.weight])]
  constructor
  · intro place hplace
    obtain rfl : 0 = place := Option.some.inj (hreach.symm.trans hplace)
    refine ⟨rfl, ?_⟩
    simp [reportsBehind, complaints_cons, complaint?, h]
  · intro hnone
    cases hreach.symm.trans hnone

/-- How a token in front changes a reading: it is reported for what stands before it, and its
weight shifts the levels of the open nodes. -/
theorem cons {inner : List Range} (h : KeepsToParens size token.lexeme inner rest reading)
    (hlevel : (inner.length : Int) = openings.length + token.lexeme.weight)
    (hweight : -(openings.length : Int) < token.lexeme.weight)
    (hopen : unclosedReports rest ++ openReports rest (-1) inner =
      unclosedReports (token :: rest) ++ openReports (token :: rest) (-1) openings) :
    KeepsToParens size before openings (token :: rest)
      (reading.after (complaint? size before (token :: rest)).toList) := by
  have hreach : reach? (-openings.length) (token :: rest) =
      (reach? (-inner.length) rest).map (· + 1) := by
    have hlower : -(openings.length : Int) - token.lexeme.weight = -inner.length := by omega
    rw [reach?_cons_of_ne rest (by omega), hlower]
  constructor
  · intro place hplace
    rcases Option.map_eq_some_iff.1 (hreach ▸ hplace) with ⟨earlier, hearlier, rfl⟩
    rcases h.closed earlier hearlier with ⟨hrest, hreports⟩
    refine ⟨hrest, ?_⟩
    rw [List.take_succ_cons, reportsBehind_cons, ← hreports]
    rfl
  · intro hnone
    rcases h.unclosed (Option.map_eq_none_iff.1 (hreach ▸ hnone)) with ⟨hrest, hreports⟩
    refine ⟨hrest, ?_⟩
    rw [reportsBehind_cons, List.append_assoc, ← hopen, ← hreports]
    rfl

/-- A token that is no parenthesis changes no level. -/
theorem cons_plain (before : Lexeme) (hne : openings ≠ []) (hweight : token.lexeme.weight = 0)
    (h : KeepsToParens size token.lexeme openings rest reading) :
    KeepsToParens size before openings (token :: rest)
      (reading.after (complaint? size before (token :: rest)).toList) := by
  have hlength : 0 < openings.length := List.length_pos_iff.2 hne
  have hopening : token.lexeme ≠ .opening := by
    intro hlexeme
    simp [hlexeme, Lexeme.weight] at hweight
  apply h.cons (by omega) (by omega)
  rw [unclosedReports_cons_of_ne hopening, openReports_cons (by omega), hweight, Int.sub_zero]

/-- A parenthesis opens one more node. -/
theorem cons_opening (before : Lexeme) (hlexeme : token.lexeme = .opening)
    (h : KeepsToParens size .opening (token.range :: openings) rest reading) :
    KeepsToParens size before openings (token :: rest)
      (reading.after (complaint? size before (token :: rest)).toList) := by
  have hweight : token.lexeme.weight = 1 := by rw [hlexeme]; rfl
  refine cons (hlexeme.symm ▸ h) (by simp [hweight]) (by omega) ?_
  rw [unclosedReports_cons_opening hlexeme, openReports_cons (by omega), hweight, openReports,
    List.append_assoc]

/-- A closing parenthesis closes the innermost node. -/
theorem cons_closing (before : Lexeme) (opening : Range) (hne : openings ≠ [])
    (hlexeme : token.lexeme = .closing)
    (h : KeepsToParens size .closing openings rest reading) :
    KeepsToParens size before (opening :: openings) (token :: rest)
      (reading.after (complaint? size before (token :: rest)).toList) := by
  have hlength : 0 < openings.length := List.length_pos_iff.2 hne
  have hweight : token.lexeme.weight = -1 := by rw [hlexeme]; rfl
  refine cons (hlexeme.symm ▸ h) (by rw [List.length_cons]; omega)
    (by rw [List.length_cons]; omega) ?_
  have hreach : reach? (-1) (token :: rest) = some 0 := by rw [reach?_cons, if_pos hweight]
  rw [unclosedReports_cons_of_ne (by simp [hlexeme]), openReports, hreach,
    openReports_cons (by omega), hweight]
  rfl

/-- Behind everything but an opening parenthesis the same is reported. -/
theorem behind (hbefore : before ≠ .opening)
    (h : KeepsToParens size .closing openings rest reading) :
    KeepsToParens size before openings rest reading := by
  rcases h with ⟨hclosed, hunclosed⟩
  simp only [reportsBehind, ← complaint?_of_ne hbefore] at hclosed hunclosed
  exact ⟨hclosed, hunclosed⟩

end KeepsToParens

/-! ## The reader keeps to the parentheses -/

/-- Adding a child leaves the place of a frame. -/
@[simp] theorem Frame.opening_add (frame : Frame) (child : Value Unit) :
    (frame.add child).opening = frame.opening := rfl

/-- Without a word in front there is no type, no token is used up, and the type is missed. -/
theorem Header.read_of_ne {size : Nat} {tokens : List Token} (opening : Range)
    (h : ∀ word, tokens.head?.map Token.lexeme ≠ some (.identifier word)) :
    Header.read size opening tokens =
      ⟨⟨opening, none, []⟩, tokens, [.error .expectedNodeType (firstRange size tokens) none]⟩ := by
  cases tokens with
  | nil => rfl
  | cons token rest =>
    unfold Header.read
    cases hlexeme : token.lexeme with
    | identifier word => exact absurd (congrArg some hlexeme) (h word)
    | opening | closing | symbol | string | int | float | faulty => simp only [hlexeme, firstRange]

/-- A missing type is one more report, and the only one on the first token. -/
theorem reportsBehind_opening {size : Nat} {tokens : List Token}
    (h : ∀ word, tokens.head?.map Token.lexeme ≠ some (.identifier word)) :
    reportsBehind size .opening tokens =
      .error .expectedNodeType (firstRange size tokens) none ::
        reportsBehind size .closing tokens := by
  unfold reportsBehind complaint?
  split
  · next word hword => exact absurd hword (h word)
  · rfl

/-- Reading a type reports on the first token behind the parenthesis, and uses up a word. -/
theorem KeepsToParens.header {size : Nat} {openings : List Range} {opening : Range}
    {tokens : List Token} {reading : Reading} (hne : openings ≠ [])
    (h : KeepsToParens size .closing openings (Header.read size opening tokens).rest reading) :
    KeepsToParens size .opening openings tokens
      (reading.after (Header.read size opening tokens).diagnostics) := by
  by_cases hword : ∃ word, tokens.head?.map Token.lexeme = some (.identifier word)
  · rcases hword with ⟨word, hword⟩
    rcases Option.map_eq_some_iff.1 hword with ⟨token, htoken, hname⟩
    rcases List.head?_eq_some_iff.1 htoken with ⟨rest, rfl⟩
    rw [Header.read_identifier opening hname] at h ⊢
    have hnone : complaint? size .opening (token :: rest) = none := by
      simp [complaint?, hname]
    have hbehind := h.behind (by simp [hname] : token.lexeme ≠ .opening)
    have hcons := hbehind.cons_plain .opening hne (by rw [hname]; rfl)
    rwa [hnone] at hcons
  · have hne : ∀ word, tokens.head?.map Token.lexeme ≠ some (.identifier word) :=
      fun word h => hword ⟨word, h⟩
    rw [Header.read_of_ne opening hne] at h ⊢
    constructor
    · intro place hplace
      rcases h.closed place hplace with ⟨hrest, hreports⟩
      refine ⟨hrest, ?_⟩
      have hfirst : firstRange size (tokens.take (place + 1)) = firstRange size tokens := by
        cases tokens <;> rfl
      rw [reportsBehind_opening (by simpa [List.head?_take] using hne), ← hreports, hfirst]
      rfl
    · intro hnone
      rcases h.unclosed hnone with ⟨hrest, hreports⟩
      refine ⟨hrest, ?_⟩
      rw [reportsBehind_opening hne, List.cons_append, ← hreports]
      rfl

/-- A header is open where it was told. -/
@[simp] theorem Header.opening_read (size : Nat) (opening : Range) (tokens : List Token) :
    (Header.read size opening tokens).frame.opening = opening := by
  unfold Header.read
  split
  · rfl
  · split <;> rfl

/-- A faulty token is dropped without another report. -/
theorem readItems_faulty {size : Nat} {frame : Frame} {outer : List Frame} {token : Token}
    {rest : List Token} {fault : Fault} (h : token.lexeme = .faulty fault) :
    readItems size frame outer (token :: rest) = readItems size frame outer rest := by
  rw [readItems.eq_def]
  simp only [h]

/-- What no word is, or the word of a literal, is in place inside of a node. -/
theorem complaint?_closing_eq_none {size : Nat} {token : Token} (rest : List Token)
    (h : ∀ word, token.lexeme = .identifier word → keyword? word ≠ none) :
    complaint? size .closing (token :: rest) = none := by
  cases hlexeme : token.lexeme with
  | identifier word =>
    rcases Option.ne_none_iff_exists'.1 (h word hlexeme) with ⟨literal, hliteral⟩
    rcases keyword?_eq_some hliteral with ⟨rfl, _⟩ | ⟨rfl, _⟩ | ⟨rfl, _⟩ <;>
      simp [complaint?, hlexeme]
  | opening | closing | symbol | string | int | float | faulty => simp [complaint?, hlexeme]

/-- A word that writes no literal is reported inside of a node. -/
theorem complaint?_closing_stray {size : Nat} {token : Token} {word : String} (rest : List Token)
    (h : token.lexeme = .identifier word) (hword : keyword? word = none) :
    complaint? size .closing (token :: rest) =
      some (.error .unexpectedToken token.range (some (quotedString token.text))) := by
  have hnot : word ∉ ["nil", "true", "false"] := by
    intro hmem
    simp only [List.mem_cons, List.not_mem_nil, or_false] at hmem
    rcases hmem with rfl | rfl | rfl <;> cases hword
  simp [complaint?, h, hnot]

/-- The reader keeps to the parentheses, whatever nodes are open.  The induction is on the number
of tokens, since a type may use up the token behind a parenthesis. -/
theorem keepsToParens_readItems (size : Nat) (tokens : List Token) (frame : Frame)
    (outer : List Frame) :
    KeepsToParens size .closing ((frame :: outer).map Frame.opening) tokens
      (readItems size frame outer tokens) := by
  induction hn : tokens.length using Nat.strongRecOn generalizing tokens frame outer with
  | ind n ih =>
    subst hn
    cases tokens with
    | nil =>
      rw [readItems]
      have hmap : (frame :: outer).map Frame.unclosed =
          ((frame :: outer).map Frame.opening).map unclosedReport := by
        rw [List.map_map]
        rfl
      rw [hmap]
      exact .nil (by simp)
    | cons token rest =>
      have hne : (frame :: outer).map Frame.opening ≠ [] := by simp
      cases hleaf : token.lexeme.leaf? with
      | some literal =>
        have hrest := ih rest.length (by simp) rest (frame.add (.lit literal)) outer rfl
        have hplain : token.lexeme.weight = 0 ∧ token.lexeme ≠ .opening ∧
            ∀ word, token.lexeme = .identifier word → keyword? word ≠ none := by
          cases hlexeme : token.lexeme <;>
            simp_all [Lexeme.leaf?, Lexeme.literal?, Lexeme.weight]
        have hcons := (hrest.behind hplain.2.1).cons_plain .closing hne hplain.1
        rw [complaint?_closing_eq_none rest hplain.2.2] at hcons
        rwa [readItems_leaf hleaf]
      | none =>
        rcases Lexeme.eq_of_leaf?_eq_none hleaf with ho | hc | ⟨word, hw⟩ | ⟨fault, hf⟩
        · have hrest := ih _ (Nat.lt_succ_of_le (Header.length_read_le size token.range rest))
            (Header.read size token.range rest).rest (Header.read size token.range rest).frame
            (frame :: outer) rfl
          rw [List.map_cons, Header.opening_read] at hrest
          have hcons := (hrest.header (List.cons_ne_nil _ _)).cons_opening .closing ho
          rw [complaint?_closing_eq_none rest (by simp [ho])] at hcons
          rwa [readItems_opening ho]
        · cases outer with
          | nil =>
            rw [readItems_closing_nil hc]
            exact .closing_last hc
          | cons parent outer =>
            rw [readItems_closing_cons hc]
            have hrest :=
              ih rest.length (by simp) rest (parent.add (.ofNode? frame.close)) outer rfl
            have hcons := hrest.cons_closing .closing frame.opening (List.cons_ne_nil _ _) hc
            rwa [complaint?_closing_eq_none rest (by simp [hc])] at hcons
        · have hword : keyword? word = none := by rwa [hw] at hleaf
          have hrest := ih rest.length (by simp) rest frame outer rfl
          have hbehind := hrest.behind (by simp [hw] : token.lexeme ≠ .opening)
          have hcons := hbehind.cons_plain .closing hne (by rw [hw]; rfl)
          rw [complaint?_closing_stray rest hw hword] at hcons
          rwa [readItems_stray hw hleaf]
        · have hrest := ih rest.length (by simp) rest frame outer rfl
          have hbehind := hrest.behind (by simp [hf] : token.lexeme ≠ .opening)
          have hcons := hbehind.cons_plain .closing hne (by rw [hf]; rfl)
          rw [complaint?_closing_eq_none rest (by simp [hf])] at hcons
          rwa [readItems_faulty hf]

/-! ## Whole token lists -/

/-- Behind the parenthesis of a node, reading it keeps to the parentheses. -/
theorem keepsToParens_readNode (size : Nat) (opening : Token) (rest : List Token) :
    KeepsToParens size .opening [opening.range] rest (readNode size (opening :: rest)) := by
  have hitems := keepsToParens_readItems size (Header.read size opening.range rest).rest
    (Header.read size opening.range rest).frame []
  rw [List.map_cons, Header.opening_read] at hitems
  exact hitems.header (List.cons_ne_nil _ _)

/-- The reports on a node with a partner for its parenthesis. -/
theorem readNode_reports_closed (size : Nat) {place : Nat} {tokens : List Token}
    (hopening : tokens.head?.map Token.lexeme = some .opening)
    (hplace : partner? tokens = some place) :
    (readNode size tokens).rest = tokens.drop (place + 1) ∧
      (readNode size tokens).diagnostics = complaints size (tokens.take (place + 1)) := by
  rcases Option.map_eq_some_iff.1 hopening with ⟨opening, hhead, hlexeme⟩
  rcases List.head?_eq_some_iff.1 hhead with ⟨rest, rfl⟩
  have hweight : opening.lexeme.weight = 1 := by rw [hlexeme]; rfl
  rw [partner?, reach?_cons_of_ne rest (by omega), hweight] at hplace
  rcases Option.map_eq_some_iff.1 hplace with ⟨inner, hinner, rfl⟩
  rcases (keepsToParens_readNode size opening rest).closed inner hinner with ⟨hrest, hreports⟩
  refine ⟨hrest, ?_⟩
  rw [hreports, List.take_succ_cons, complaints_cons, hlexeme]
  rfl

/-- The reports on a node without a partner for its parenthesis. -/
theorem readNode_reports_unclosed (size : Nat) {tokens : List Token}
    (hopening : tokens.head?.map Token.lexeme = some .opening)
    (hplace : partner? tokens = none) :
    (readNode size tokens).rest = [] ∧
      (readNode size tokens).diagnostics = complaints size tokens ++ unclosedReports tokens := by
  rcases Option.map_eq_some_iff.1 hopening with ⟨opening, hhead, hlexeme⟩
  rcases List.head?_eq_some_iff.1 hhead with ⟨rest, rfl⟩
  have hweight : opening.lexeme.weight = 1 := by rw [hlexeme]; rfl
  rw [partner?, reach?_cons_of_ne rest (by omega), hweight] at hplace
  obtain ⟨hrest, hreports⟩ := (keepsToParens_readNode size opening rest).unclosed
    (Option.map_eq_none_iff.1 hplace)
  refine ⟨hrest, ?_⟩
  rw [hreports, complaints_cons, unclosedReports_cons_opening hlexeme, hlexeme]
  simp [reportsBehind, openReports]

/-- What is reported on the tokens of a text, and where reading stops.  Without a parenthesis in
front only the missing node is reported and nothing is read.  Otherwise, up to the partner of that
parenthesis, every missing type and every stray word is reported in order of the tokens; then
either what stands behind the partner, or, innermost first, every parenthesis without a partner. -/
theorem readRoot_reports (size : Nat) (tokens : List Token) :
    (tokens.head?.map Token.lexeme ≠ some .opening →
      readRoot size tokens =
        ⟨none, tokens, [.error .expectedNodeType (firstRange size tokens) none]⟩) ∧
    (tokens.head?.map Token.lexeme = some .opening →
      (∀ place, partner? tokens = some place →
        (readRoot size tokens).rest = tokens.drop (place + 1) ∧
          (readRoot size tokens).diagnostics =
            complaints size (tokens.take (place + 1)) ++
              ((tokens.drop (place + 1)).head?.map fun extra =>
                .error .expectedSingleRoot extra.range none).toList) ∧
      (partner? tokens = none →
        (readRoot size tokens).rest = [] ∧
          (readRoot size tokens).diagnostics =
            complaints size tokens ++ unclosedReports tokens)) := by
  refine ⟨fun h => by rw [readRoot, if_neg h], fun hopening => ⟨?_, ?_⟩⟩
  · intro place hplace
    rcases readNode_reports_closed size hopening hplace with ⟨hrest, hreports⟩
    rw [readRoot, if_pos hopening, ← hrest, ← hreports]
    cases hextra : (readNode size tokens).rest with
    | nil => simp [hextra]
    | cons extra more => simp [hextra]
  · intro hplace
    rcases readNode_reports_unclosed size hopening hplace with ⟨hrest, hreports⟩
    rw [readRoot, if_pos hopening, ← hreports]
    simp only [hrest, and_self]

/-- A parenthesis in place of a type, a stray word and a node that is never closed are reported
where they stand, in this order. -/
theorem readRoot_reports_missing_stray_unclosed :
    let tokens : List Token :=
      [.over 0 ['('] .opening, .over 1 "send".toList (.identifier "send"), .over 6 ['('] .opening,
        .over 7 ['('] .opening, .over 8 "int".toList (.identifier "int"), .over 12 ['2'] (.int 2),
        .over 13 [')'] .closing, .over 14 [')'] .closing,
        .over 16 "foo".toList (.identifier "foo"), .over 20 ['('] .opening,
        .over 21 "int".toList (.identifier "int"), .over 25 ['1'] (.int 1), .over 26 [')'] .closing]
    tokens.head?.map Token.lexeme = some .opening ∧ partner? tokens = none ∧
      (readRoot 27 tokens).rest = [] ∧
      (readRoot 27 tokens).diagnostics.map (fun report => (report.problem, report.range.start)) =
        [(.expectedNodeType, 7), (.unexpectedToken, 16), (.unbalancedParen, 0)] := by
  intro tokens
  have hopening : tokens.head?.map Token.lexeme = some .opening := rfl
  have hpartner : partner? tokens = none := by decide +kernel
  rcases ((readRoot_reports 27 tokens).2 hopening).2 hpartner with ⟨hrest, hreports⟩
  refine ⟨hopening, hpartner, hrest, ?_⟩
  rw [hreports]
  decide +kernel

end RubyTree.Sexp
