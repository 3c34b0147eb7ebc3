import RubyTree.Proofs.Sexp.Recovery

/-!
# Reading by descent

A reader can be used as often as one likes on the same tokens, from wherever the use
before has left it.  It is told here by recursion from a node to its inner nodes, with
nothing but a place among the tokens and the reports so far.  What stands at a place is
a token, or the end behind the last one; a place behind the end has nothing to read, so
that a run which comes there does not complete.

Main results:

- `readItems_within`: the open nodes around a node do not change how it is read, and
  the reading goes on in the innermost of them.
- `Reader.ReadsNode`, `Reader.ReadsItems` and `Reader.ReadsRoot` are the completed runs,
  step by step, and `Reader.Call.Completes` those of a call.
- `Reader.Agrees` compares a run and a reading of the tokens in front of it, and the
  runs agree with `readNode`, `readItems` and `readRoot`.
- `Reader.completes_iff`: from every place up to the end exactly one run completes.
- `Reader.calls_stay_inside` follows a reader over any calls.
-/

namespace RubyTree.Sexp

open RubyTree.Text

/-! ## Inner nodes are read on their own -/

/-- The reading of an innermost node goes on with the items of the nodes around it. -/
def Reading.within (size : Nat) (outer : List Frame) (reading : Reading) : Reading :=
  match outer with
  | [] => reading
  | parent :: outer =>
    (readItems size (parent.add (.ofNode? reading.node)) outer reading.rest).after
      reading.diagnostics

/-- Reports that were made before stand in front of all others. -/
theorem Reading.within_after (size : Nat) (outer : List Frame) (reading : Reading)
    (reports : List Diagnostic) :
    (reading.after reports).within size outer = (reading.within size outer).after reports := by
  cases outer with
  | nil => rfl
  | cons parent outer => simp [within, after]

/-- Reading items leaves no more tokens. -/
theorem length_readItems_le (size : Nat) (frame : Frame) (outer : List Frame)
    (tokens : List Token) :
    (readItems size frame outer tokens).rest.length ≤ tokens.length := by
  have hkeeps := keepsToParens_readItems size tokens frame outer
  cases hreach : reach? (-((frame :: outer).map Frame.opening).length) tokens with
  | none => simp [(hkeeps.unclosed hreach).1]
  | some place => simp [(hkeeps.closed place hreach).1]

/-- The nodes around a node do not change how it is read.  The induction is on the number of
tokens: behind an inner node the items of the node go on. -/
theorem readItems_within (size : Nat) (frame : Frame) (outer : List Frame)
    (tokens : List Token) :
    readItems size frame outer tokens = (readItems size frame [] tokens).within size outer := by
  induction hn : tokens.length using Nat.strongRecOn generalizing tokens frame outer with
  | ind n ih =>
    subst hn
    cases outer with
    | nil => rfl
    | cons parent outer =>
      cases tokens with
      | nil =>
        simp only [readItems, Reading.within]
        rfl
      | cons token rest =>
        cases hleaf : token.lexeme.leaf? with
        | some literal =>
          rw [readItems_leaf hleaf, readItems_leaf hleaf]
          exact ih rest.length (by simp) _ _ rest rfl
        | none =>
          rcases Lexeme.eq_of_leaf?_eq_none hleaf with ho | hc | ⟨word, hw⟩ | ⟨fault, hf⟩
          · let header := Header.read size token.range rest
            let inner := readItems size header.frame [] header.rest
            have hheader : header.rest.length ≤ rest.length :=
              Header.length_read_le size token.range rest
            have hinner : inner.rest.length ≤ header.rest.length := length_readItems_le ..
            have hitems : ∀ outer, readItems size header.frame outer header.rest =
                inner.within size outer :=
              fun outer => ih _ (by simp only [List.length_cons]; omega) _ outer _ rfl
            have hbehind := ih inner.rest.length (by simp only [List.length_cons]; omega)
              (frame.add (.ofNode? inner.node)) (parent :: outer) _ rfl
            have hsplit : inner.within size (frame :: parent :: outer) =
                (inner.within size [frame]).within size (parent :: outer) := by
              rw [Reading.within, hbehind]
              exact (Reading.within_after ..).symm
            rw [readItems_opening ho, readItems_opening ho, Reading.within_after, hitems, hitems,
              hsplit]
          · rw [readItems_closing_cons hc, readItems_closing_nil hc]
            rfl
          · rw [readItems_stray hw hleaf, readItems_stray hw hleaf, Reading.within_after]
            exact congrArg _ (ih rest.length (by simp) _ _ rest rfl)
          · rw [readItems_faulty hf, readItems_faulty hf]
            exact ih rest.length (by simp) _ _ rest rfl

/-- An inner node is read as a node, and is one item more. -/
theorem readItems_readNode {size : Nat} {frame : Frame} {token : Token} {rest : List Token}
    (h : token.lexeme = .opening) :
    readItems size frame [] (token :: rest) =
      (readNode size (token :: rest)).within size [frame] := by
  rw [readItems_opening h, readItems_within, ← Reading.within_after]
  rfl

/-! ## Readers -/

/-- A reader in use: where it stands among its tokens, and what it has reported. -/
structure Reader where
  /-- The number of tokens before the place. -/
  place : Nat
  /-- The reports, in the order in which they were made. -/
  reports : List Diagnostic

/-- The range of a token, or the end of the text. -/
def rangeOf (size : Nat) : Option Token → Range
  | none => endRange size
  | some token => token.range

namespace Reader

/-- What stands at the place: a token, or the end behind the last one.  Behind the end there is
nothing. -/
def current? (tokens : Tokens) (reader : Reader) : Option (Option Token) :=
  (tokens.toList.map some ++ [none])[reader.place]?

/-- The tokens from the place on. -/
def ahead (tokens : Tokens) (reader : Reader) : List Token :=
  tokens.toList.drop reader.place

/-- Passes what stands at the place.  The end is not passed. -/
def pass (reader : Reader) (found : Option Token) : Reader :=
  match found with
  | none => reader
  | some _ => ⟨reader.place + 1, reader.reports⟩

/-- Reports a problem. -/
def report (reader : Reader) (problem : Diagnostic) : Reader :=
  ⟨reader.place, reader.reports ++ [problem]⟩

/-! ## Completed runs -/

mutual

/-- The reader reads a node.  Whatever stands at the place is taken for the parenthesis. -/
inductive ReadsNode (tokens : Tokens) : Reader → Option (Node Unit) → Reader → Prop
  /-- Behind the parenthesis stands the type. -/
  | typed {reader after : Reader} {opening : Option Token} {token : Token} {word : String}
      {node : Option (Node Unit)} (hopening : reader.current? tokens = some opening)
      (htype : (reader.pass opening).current? tokens = some (some token))
      (hword : token.lexeme = .identifier word)
      (hitems : ReadsItems tokens ⟨rangeOf tokens.size opening, some (typeNamed word), []⟩
        ((reader.pass opening).pass (some token)) node after) :
      ReadsNode tokens reader node after
  /-- Behind the parenthesis stands no word, and the type is missed. -/
  | untyped {reader after : Reader} {opening found : Option Token} {node : Option (Node Unit)}
      (hopening : reader.current? tokens = some opening)
      (htype : (reader.pass opening).current? tokens = some found)
      (hword : ∀ word, found.map Token.lexeme ≠ some (.identifier word))
      (hitems : ReadsItems tokens ⟨rangeOf tokens.size opening, none, []⟩
        ((reader.pass opening).report
          (.error .expectedNodeType (rangeOf tokens.size found) none)) node after) :
      ReadsNode tokens reader node after

/-- The reader reads the items of an open node, one after the other, and closes it. -/
inductive ReadsItems (tokens : Tokens) : Frame → Reader → Option (Node Unit) → Reader → Prop
  /-- The text ends before the node does. -/
  | ended {frame : Frame} {reader : Reader} (hcurrent : reader.current? tokens = some none) :
      ReadsItems tokens frame reader frame.close (reader.report frame.unclosed)
  /-- The node is closed. -/
  | closing {frame : Frame} {reader : Reader} {token : Token}
      (hcurrent : reader.current? tokens = some (some token))
      (hlexeme : token.lexeme = .closing) :
      ReadsItems tokens frame reader frame.close (reader.pass (some token))
  /-- An inner node is read before the items go on. -/
  | opening {frame : Frame} {reader inner after : Reader} {token : Token}
      {child node : Option (Node Unit)} (hcurrent : reader.current? tokens = some (some token))
      (hlexeme : token.lexeme = .opening) (hnode : ReadsNode tokens reader child inner)
      (hitems : ReadsItems tokens (frame.add (.ofNode? child)) inner node after) :
      ReadsItems tokens frame reader node after
  /-- A literal is one item more. -/
  | leaf {frame : Frame} {reader after : Reader} {token : Token} {literal : Literal}
      {node : Option (Node Unit)} (hcurrent : reader.current? tokens = some (some token))
      (hleaf : token.lexeme.leaf? = some literal)
      (hitems : ReadsItems tokens (frame.add (.lit literal)) (reader.pass (some token)) node
        after) :
      ReadsItems tokens frame reader node after
  /-- A word that is no literal is reported and passed. -/
  | stray {frame : Frame} {reader after : Reader} {token : Token} {word : String}
      {node : Option (Node Unit)} (hcurrent : reader.current? tokens = some (some token))
      (hlexeme : token.lexeme = .identifier word) (hleaf : token.lexeme.leaf? = none)
      (hitems : ReadsItems tokens frame
        ((reader.report
          (.error .unexpectedToken token.range (some (quotedString token.text)))).pass
            (some token)) node after) :
      ReadsItems tokens frame reader node after
  /-- A faulty token is passed. -/
  | faulty {frame : Frame} {reader after : Reader} {token : Token} {fault : Fault}
      {node : Option (Node Unit)} (hcurrent : reader.current? tokens = some (some token))
      (hlexeme : token.lexeme = .faulty fault)
      (hitems : ReadsItems tokens frame (reader.pass (some token)) node after) :
      ReadsItems tokens frame reader node after

end

/-- The reader reads the only node of the tokens. -/
inductive ReadsRoot (tokens : Tokens) : Reader → Option (Node Unit) → Reader → Prop
  /-- Without a parenthesis nothing is read. -/
  | refused {reader : Reader} {found : Option Token}
      (hcurrent : reader.current? tokens = some found)
      (hlexeme : found.map Token.lexeme ≠ some .opening) :
      ReadsRoot tokens reader none
        (reader.report (.error .expectedNodeType (rangeOf tokens.size found) none))
  /-- The node reaches to the end. -/
  | alone {reader after : Reader} {token : Token} {node : Option (Node Unit)}
      (hcurrent : reader.current? tokens = some (some token))
      (hlexeme : token.lexeme = .opening) (hnode : ReadsNode tokens reader node after)
      (hend : after.current? tokens = some none) :
      ReadsRoot tokens reader node after
  /-- Behind the node stands something else, which is reported. -/
  | followed {reader after : Reader} {token extra : Token} {node : Option (Node Unit)}
      (hcurrent : reader.current? tokens = some (some token))
      (hlexeme : token.lexeme = .opening) (hnode : ReadsNode tokens reader node after)
      (hextra : after.current? tokens = some (some extra)) :
      ReadsRoot tokens reader node
        (after.report (.error .expectedSingleRoot extra.range none))

/-! ## Places -/

section Places

variable {tokens : Tokens} {reader : Reader} {found : Option Token} {token : Token}

/-- There is something at every place up to the end, and it is the first of what is ahead. -/
theorem current?_eq_some_iff :
    reader.current? tokens = some found ↔
      reader.place ≤ tokens.toList.length ∧ (reader.ahead tokens).head? = found := by
  rw [current?, ahead, List.head?_drop]
  rcases Nat.lt_trichotomy reader.place tokens.toList.length with hlt | heq | hgt
  · rw [List.getElem?_append_left (by rwa [List.length_map])]
    simp [hlt, hlt.le]
  · simp [heq, eq_comm]
  · have hlength : (tokens.toList.map some ++ [none]).length ≤ reader.place := by
      simpa using Nat.succ_le_of_lt hgt
    rw [List.getElem?_eq_none hlength]
    simp [hgt.not_ge]

/-- Up to the end there is something at every place. -/
theorem exists_current? (h : reader.place ≤ tokens.toList.length) :
    ∃ found, reader.current? tokens = some found :=
  ⟨_, current?_eq_some_iff.2 ⟨h, rfl⟩⟩

/-- In front of the end nothing is ahead. -/
theorem ahead_of_end (h : reader.current? tokens = some none) : reader.ahead tokens = [] :=
  List.head?_eq_none_iff.1 (current?_eq_some_iff.1 h).2

/-- What is passed is no longer ahead. -/
theorem ahead_pass (h : reader.current? tokens = some found) :
    (reader.pass found).ahead tokens = (reader.ahead tokens).tail := by
  cases found with
  | none => rw [pass, ahead_of_end h, List.tail_nil]
  | some token => rw [ahead, ahead, List.tail_drop]; rfl

/-- A token at the place is the first one ahead. -/
theorem ahead_of_token (h : reader.current? tokens = some (some token)) :
    reader.ahead tokens = token :: (reader.pass (some token)).ahead tokens := by
  rw [ahead_pass h]
  exact List.eq_cons_of_mem_head? (current?_eq_some_iff.1 h).2

/-- A token stands before the end. -/
theorem place_lt_of_token (h : reader.current? tokens = some (some token)) :
    reader.place < tokens.toList.length := by
  have hlength := congrArg List.length (ahead_of_token h)
  rw [ahead, List.length_drop, List.length_cons] at hlength
  omega

/-- The range of what is at the place. -/
theorem firstRange_ahead (h : reader.current? tokens = some found) :
    firstRange tokens.size (reader.ahead tokens) = rangeOf tokens.size found := by
  cases found with
  | none => rw [ahead_of_end h]; rfl
  | some token => rw [ahead_of_token h]; rfl

/-- Passing does not go back. -/
theorem place_le_pass (reader : Reader) (found : Option Token) :
    reader.place ≤ (reader.pass found).place := by
  cases found with
  | none => exact Nat.le_refl _
  | some token => exact Nat.le_succ _

/-- Passing moves on in front of the end. -/
theorem place_lt_pass (h : reader.current? tokens = some found)
    (hlt : reader.place < tokens.toList.length) : reader.place < (reader.pass found).place := by
  cases found with
  | none =>
    have hlength := congrArg List.length (ahead_of_end h)
    rw [ahead, List.length_drop, List.length_nil] at hlength
    omega
  | some token => exact Nat.lt_succ_self _

/-- Passing does not go behind the end. -/
theorem pass_le_length (h : reader.current? tokens = some found) :
    (reader.pass found).place ≤ tokens.toList.length := by
  cases found with
  | none => exact (current?_eq_some_iff.1 h).1
  | some token => exact place_lt_of_token h

@[simp] theorem reports_pass (reader : Reader) (found : Option Token) :
    (reader.pass found).reports = reader.reports := by
  cases found <;> rfl

end Places

/-! ## Runs agree with readings -/

/-- A run that comes with a node to its last place agrees with a reading of what is ahead. -/
structure Agrees (tokens : Tokens) (reader : Reader) (node : Option (Node Unit)) (after : Reader)
    (reading : Reading) : Prop where
  /-- It gives the node of the reading. -/
  node_eq : reading.node = node
  /-- It stands in front of what the reading leaves. -/
  rest_eq : reading.rest = after.ahead tokens
  /-- It adds the reports of the reading behind those that are there. -/
  reports_eq : after.reports = reader.reports ++ reading.diagnostics
  /-- It does not go back. -/
  place_le : reader.place ≤ after.place
  /-- It does not pass the end. -/
  le_length : after.place ≤ tokens.toList.length

section Runs

variable {tokens : Tokens} {reader first after : Reader} {node : Option (Node Unit)}
  {reading : Reading} {frame : Frame}

/-- What is passed and reported before a run comes before the reading. -/
theorem Agrees.before {reports : List Diagnostic} (h : Agrees tokens first node after reading)
    (hplace : reader.place ≤ first.place) (hreports : first.reports = reader.reports ++ reports) :
    Agrees tokens reader node after (reading.after reports) where
  node_eq := h.node_eq
  rest_eq := h.rest_eq
  reports_eq := by
    rw [h.reports_eq, hreports, List.append_assoc]
    rfl
  place_le := hplace.trans h.place_le
  le_length := h.le_length

/-- What is passed before a run does not show in the reading. -/
theorem Agrees.passed {token : Token}
    (h : Agrees tokens (reader.pass (some token)) node after reading) :
    Agrees tokens reader node after reading := by
  have hreports : (reader.pass (some token)).reports = reader.reports ++ [] := by simp
  exact h.before (place_le_pass _ _) hreports

/-- Behind the type, a node is read by its items. -/
theorem readNode_of_typed {opening : Option Token} {token : Token} {word : String}
    (hopening : reader.current? tokens = some opening)
    (htype : (reader.pass opening).current? tokens = some (some token))
    (hword : token.lexeme = .identifier word) :
    readNode tokens.size (reader.ahead tokens) =
      readItems tokens.size ⟨rangeOf tokens.size opening, some (typeNamed word), []⟩ []
        (((reader.pass opening).pass (some token)).ahead tokens) := by
  rw [readNode, firstRange_ahead hopening, ← ahead_pass hopening, ahead_of_token htype,
    Header.read_identifier _ hword, Reading.after_nil]

/-- Without a type, a node is read by its items behind the report. -/
theorem readNode_of_untyped {opening found : Option Token}
    (hopening : reader.current? tokens = some opening)
    (htype : (reader.pass opening).current? tokens = some found)
    (hword : ∀ word, found.map Token.lexeme ≠ some (.identifier word)) :
    readNode tokens.size (reader.ahead tokens) =
      (readItems tokens.size ⟨rangeOf tokens.size opening, none, []⟩ []
        ((reader.pass opening).ahead tokens)).after
          [.error .expectedNodeType (rangeOf tokens.size found) none] := by
  rw [← (current?_eq_some_iff.1 htype).2] at hword
  rw [readNode, firstRange_ahead hopening, ← ahead_pass hopening, Header.read_of_ne _ hword,
    firstRange_ahead htype]

mutual

-- The recursion is on the runs: one over items holds those over its inner nodes.

/-- A run over a node agrees with the reading of the node. -/
theorem ReadsNode.agrees {reader after : Reader} {node : Option (Node Unit)}
    (h : ReadsNode tokens reader node after) :
    Agrees tokens reader node after (readNode tokens.size (reader.ahead tokens)) := by
  match h with
  | .typed hopening htype hword hitems =>
    have hread := hitems.agrees
    rw [readNode_of_typed hopening htype hword, ← Reading.after_nil (readItems _ _ _ _)]
    exact hread.before ((place_le_pass _ _).trans (place_le_pass _ _)) (by simp)
  | .untyped hopening htype hword hitems =>
    have hread := hitems.agrees
    rw [readNode_of_untyped hopening htype hword]
    exact hread.before (place_le_pass _ _) (by simp [report])

/-- A run over items agrees with the reading of the items. -/
theorem ReadsItems.agrees {frame : Frame} {reader after : Reader} {node : Option (Node Unit)}
    (h : ReadsItems tokens frame reader node after) :
    Agrees tokens reader node after
      (readItems tokens.size frame [] (reader.ahead tokens)) := by
  match h with
  | .ended hcurrent =>
    have hread : readItems tokens.size frame [] (reader.ahead tokens) =
        ⟨frame.close, [], [frame.unclosed]⟩ := by
      rw [ahead_of_end hcurrent, readItems]
      rfl
    rw [hread]
    exact ⟨rfl, (ahead_of_end hcurrent).symm, rfl, Nat.le_refl _,
      (current?_eq_some_iff.1 hcurrent).1⟩
  | .closing hcurrent hlexeme =>
    rw [ahead_of_token hcurrent, readItems_closing_nil hlexeme]
    exact ⟨rfl, rfl, by simp, place_le_pass _ _, place_lt_of_token hcurrent⟩
  | .opening hcurrent hlexeme hnode hitems =>
    have hinner := hnode.agrees
    have hread := hitems.agrees
    rw [← hinner.node_eq, ← hinner.rest_eq] at hread
    rw [ahead_of_token hcurrent, readItems_readNode hlexeme, ← ahead_of_token hcurrent]
    exact hread.before hinner.place_le hinner.reports_eq
  | .leaf hcurrent hleaf hitems =>
    have hread := hitems.agrees
    rw [ahead_of_token hcurrent, readItems_leaf hleaf]
    exact hread.passed
  | .stray hcurrent hlexeme hleaf hitems =>
    have hread := hitems.agrees
    rw [ahead_of_token hcurrent, readItems_stray hlexeme hleaf]
    exact hread.before (place_le_pass (reader.report _) _) (by simp [report])
  | .faulty hcurrent hlexeme hitems =>
    have hread := hitems.agrees
    rw [ahead_of_token hcurrent, readItems_faulty hlexeme]
    exact hread.passed

end

/-- A run over the only node agrees with the reading of that node. -/
theorem ReadsRoot.agrees (h : ReadsRoot tokens reader node after) :
    Agrees tokens reader node after (readRoot tokens.size (reader.ahead tokens)) := by
  cases h with
  | refused hcurrent hlexeme =>
    rcases current?_eq_some_iff.1 hcurrent with ⟨hle, hhead⟩
    rw [readRoot, if_neg (by rwa [hhead]), firstRange_ahead hcurrent]
    exact ⟨rfl, rfl, rfl, Nat.le_refl _, hle⟩
  | alone hcurrent hlexeme hnode hend =>
    have hread := hnode.agrees
    have hrest : (readNode tokens.size (reader.ahead tokens)).rest = [] := by
      rw [hread.rest_eq, ahead_of_end hend]
    rw [readRoot, if_pos (by simp [ahead_of_token hcurrent, hlexeme])]
    simp only [hrest]
    exact hread
  | followed hcurrent hlexeme hnode hextra =>
    have hread := hnode.agrees
    have hrest := hread.rest_eq.trans (ahead_of_token hextra)
    rw [readRoot, if_pos (by simp [ahead_of_token hcurrent, hlexeme])]
    simp only [hrest]
    refine ⟨hread.node_eq, (ahead_of_token hextra).symm, ?_, hread.place_le, hread.le_length⟩
    rw [report, hread.reports_eq, List.append_assoc]

/-! ## What a run leaves -/

/-- A run over items gives a node exactly if the node has a type. -/
theorem ReadsItems.isSome_node {frame : Frame} {reader after : Reader}
    {node : Option (Node Unit)} (h : ReadsItems tokens frame reader node after) :
    node.isSome = frame.type.isSome := by
  match h with
  | .ended _ => exact Option.isSome_map
  | .closing _ _ => exact Option.isSome_map
  | .opening _ _ _ hitems => exact hitems.isSome_node
  | .leaf _ _ hitems => exact hitems.isSome_node
  | .stray _ _ _ hitems => exact hitems.isSome_node
  | .faulty _ _ hitems => exact hitems.isSome_node

/-- A run over a node that gives none has reported the missing type. -/
theorem ReadsNode.reports_lt (h : ReadsNode tokens reader none after) :
    reader.reports.length < after.reports.length := by
  cases h with
  | typed _ _ _ hitems => cases hitems.isSome_node
  | untyped _ _ _ hitems =>
    rw [hitems.agrees.reports_eq]
    simp only [report, reports_pass, List.length_append, List.length_singleton]
    omega

/-- A run over the only node that gives none has reported something. -/
theorem ReadsRoot.reports_lt (h : ReadsRoot tokens reader none after) :
    reader.reports.length < after.reports.length := by
  cases h with
  | refused => simp [report]
  | alone _ _ hnode _ => exact hnode.reports_lt
  | followed _ _ hnode _ =>
    have hlt := hnode.reports_lt
    simp only [report, List.length_append, List.length_singleton]
    omega

/-- A run over a node passes the token that it stands in front of. -/
theorem ReadsNode.place_lt (h : ReadsNode tokens reader node after)
    (hlt : reader.place < tokens.toList.length) : reader.place < after.place := by
  cases h with
  | typed hopening _ _ hitems =>
    have hle := (place_le_pass _ _).trans hitems.agrees.place_le
    exact (place_lt_pass hopening hlt).trans_le hle
  | untyped hopening _ _ hitems =>
    exact (place_lt_pass hopening hlt).trans_le hitems.agrees.place_le

/-! ## Runs complete -/

/-- A run over a node completes if those over its items do, behind its first token. -/
theorem exists_readsNode (hplace : reader.place ≤ tokens.toList.length)
    (hitems : ∀ (frame : Frame) (first : Reader),
      (reader.place < tokens.toList.length → reader.place < first.place) →
      first.place ≤ tokens.toList.length →
      ∃ node after, ReadsItems tokens frame first node after) :
    ∃ node after, ReadsNode tokens reader node after := by
  obtain ⟨opening, hopening⟩ := exists_current? hplace
  have hpassed := pass_le_length hopening
  obtain ⟨found, hfound⟩ := exists_current? hpassed
  by_cases hword : ∃ word, found.map Token.lexeme = some (.identifier word)
  · rcases hword with ⟨word, hword⟩
    rcases Option.map_eq_some_iff.1 hword with ⟨token, rfl, hlexeme⟩
    rcases hitems ⟨rangeOf tokens.size opening, some (typeNamed word), []⟩
        ((reader.pass opening).pass (some token))
        (fun hlt => (place_lt_pass hopening hlt).trans_le (place_le_pass _ _))
        (pass_le_length hfound) with ⟨node, after, hrun⟩
    exact ⟨node, after, .typed hopening hfound hlexeme hrun⟩
  · rcases hitems ⟨rangeOf tokens.size opening, none, []⟩
        ((reader.pass opening).report
          (.error .expectedNodeType (rangeOf tokens.size found) none))
        (place_lt_pass hopening) hpassed with ⟨node, after, hrun⟩
    exact ⟨node, after, .untyped hopening hfound (fun word h => hword ⟨word, h⟩) hrun⟩

/-- A run over items completes from every place up to the end.  The induction is on the number of
tokens ahead: each turn passes one, and so does the run over an inner node. -/
theorem exists_readsItems (frame : Frame) (hplace : reader.place ≤ tokens.toList.length) :
    ∃ node after, ReadsItems tokens frame reader node after := by
  induction hn : tokens.toList.length - reader.place using Nat.strongRecOn
    generalizing frame reader with
  | ind n ih =>
    subst hn
    have hlater : ∀ (frame : Frame) (first : Reader), reader.place < first.place →
        first.place ≤ tokens.toList.length →
        ∃ node after, ReadsItems tokens frame first node after :=
      fun frame first hlt hle => ih _ (by omega) frame hle rfl
    obtain ⟨found, hfound⟩ := exists_current? hplace
    cases found with
    | none => exact ⟨_, _, .ended hfound⟩
    | some token =>
      have hlt := place_lt_of_token hfound
      have hpass := place_lt_pass hfound hlt
      have hle := pass_le_length hfound
      cases hleaf : token.lexeme.leaf? with
      | some literal =>
        rcases hlater (frame.add (.lit literal)) _ hpass hle with ⟨node, after, hrun⟩
        exact ⟨node, after, .leaf hfound hleaf hrun⟩
      | none =>
        rcases Lexeme.eq_of_leaf?_eq_none hleaf with ho | hc | ⟨word, hw⟩ | ⟨fault, hf⟩
        · obtain ⟨child, inner, hnode⟩ := exists_readsNode hplace
            fun frame first hmoves => hlater frame first (hmoves hlt)
          rcases hlater (frame.add (.ofNode? child)) inner (hnode.place_lt hlt)
              hnode.agrees.le_length with ⟨node, after, hrun⟩
          exact ⟨node, after, .opening hfound ho hnode hrun⟩
        · exact ⟨_, _, .closing hfound hc⟩
        · rcases hlater frame ((reader.report
              (.error .unexpectedToken token.range (some (quotedString token.text)))).pass
                (some token)) hpass hle with ⟨node, after, hrun⟩
          exact ⟨node, after, .stray hfound hw hleaf hrun⟩
        · rcases hlater frame _ hpass hle with ⟨node, after, hrun⟩
          exact ⟨node, after, .faulty hfound hf hrun⟩

/-- A run over the only node completes from every place up to the end. -/
theorem exists_readsRoot (hplace : reader.place ≤ tokens.toList.length) :
    ∃ node after, ReadsRoot tokens reader node after := by
  obtain ⟨found, hfound⟩ := exists_current? hplace
  by_cases hopening : found.map Token.lexeme = some .opening
  · rcases Option.map_eq_some_iff.1 hopening with ⟨token, rfl, hlexeme⟩
    obtain ⟨node, after, hnode⟩ := exists_readsNode hplace
      fun frame _ _ hle => exists_readsItems frame hle
    obtain ⟨extra, hextra⟩ := exists_current? hnode.agrees.le_length
    cases extra with
    | none => exact ⟨node, after, .alone hfound hlexeme hnode hextra⟩
    | some extra => exact ⟨node, _, .followed hfound hlexeme hnode hextra⟩
  · exact ⟨none, _, .refused hfound hopening⟩

end Runs

/-! ## Calls -/

/-- The two ways to use a reader. -/
inductive Call where
  /-- The only node is read. -/
  | root
  /-- A node is read. -/
  | node
deriving DecidableEq

/-- The reading that a call asks for. -/
def Call.read : Call → Nat → List Token → Reading
  | .root => readRoot
  | .node => readNode

/-- The completed runs of a call. -/
def Call.Completes (tokens : Tokens) : Call → Reader → Option (Node Unit) → Reader → Prop
  | .root => ReadsRoot tokens
  | .node => ReadsNode tokens

/-- Reads what is ahead, and stands in front of what is left. -/
def call (tokens : Tokens) (reader : Reader) (call : Call) : Option (Node Unit) × Reader :=
  let reading := call.read tokens.size (reader.ahead tokens)
  (reading.node,
    ⟨tokens.toList.length - reading.rest.length, reader.reports ++ reading.diagnostics⟩)

/-- The reader of some tokens after some calls. -/
def afterCalls (tokens : Tokens) (calls : List Call) : Reader :=
  calls.foldl (fun reader call => (reader.call tokens call).2) ⟨0, []⟩

section Calls

variable {tokens : Tokens} {reader after : Reader} {node : Option (Node Unit)} {call : Call}

/-- The run of a call agrees with the reading that the call asks for. -/
theorem Call.Completes.agrees (h : call.Completes tokens reader node after) :
    Agrees tokens reader node after (call.read tokens.size (reader.ahead tokens)) := by
  cases call with
  | root => exact ReadsRoot.agrees h
  | node => exact ReadsNode.agrees h

/-- What a run comes to is known from the reading that it agrees with. -/
theorem Agrees.eq {reading : Reading} (h : Agrees tokens reader node after reading) :
    (reading.node,
      (⟨tokens.toList.length - reading.rest.length, reader.reports ++ reading.diagnostics⟩ :
        Reader)) = (node, after) := by
  have hle := h.le_length
  have hplace : tokens.toList.length - reading.rest.length = after.place := by
    rw [h.rest_eq, ahead, List.length_drop]
    omega
  rw [hplace, ← h.reports_eq, h.node_eq]

/-- From every place up to the end exactly one run of a call completes, and it comes to what the
call gives. -/
theorem completes_iff (hplace : reader.place ≤ tokens.toList.length) :
    call.Completes tokens reader node after ↔ reader.call tokens call = (node, after) := by
  have hexists : ∃ node after, call.Completes tokens reader node after := by
    cases call with
    | root => exact exists_readsRoot hplace
    | node => exact exists_readsNode hplace fun frame _ _ hle => exists_readsItems frame hle
  constructor
  · exact fun h => h.agrees.eq
  · intro h
    rcases hexists with ⟨other, stop, hrun⟩
    cases h.symm.trans hrun.agrees.eq
    exact hrun

/-- A run of a call that gives no node has reported something. -/
theorem Call.Completes.reports_lt (h : call.Completes tokens reader none after) :
    reader.reports.length < after.reports.length := by
  cases call with
  | root => exact ReadsRoot.reports_lt h
  | node => exact ReadsNode.reports_lt h

/-- After any calls a reader does not stand behind the end. -/
theorem place_afterCalls_le (tokens : Tokens) (calls : List Call) :
    (afterCalls tokens calls).place ≤ tokens.toList.length := by
  induction calls using List.reverseRecOn with
  | nil => exact Nat.zero_le _
  | append_singleton calls call ih =>
    rw [afterCalls, List.foldl_append]
    exact ((completes_iff ih).2 rfl).agrees.le_length

/-- A reader stays inside its tokens whatever calls are made, in any order and from wherever they
leave it.  Every call completes in exactly one way.  It does not go back and not behind the end, so
that there is something at its place; it only adds reports, at least one if it gives no node; and
reading a node passes at least one token, if any is left. -/
theorem calls_stay_inside (tokens : Tokens) (calls : List Call) (call : Call) :
    let before := afterCalls tokens calls
    let after := afterCalls tokens (calls ++ [call])
    ∃ node, before.call tokens call = (node, after) ∧
      (∀ other stop, call.Completes tokens before other stop ↔ other = node ∧ stop = after) ∧
      before.place ≤ after.place ∧ after.place ≤ tokens.toList.length ∧
      (∃ found, after.current? tokens = some found) ∧
      before.reports <+: after.reports ∧
      (node = none → before.reports.length < after.reports.length) ∧
      (call = .node → before.place < tokens.toList.length → before.place < after.place) := by
  intro before after
  have hplace : before.place ≤ tokens.toList.length := place_afterCalls_le tokens calls
  have hcall : before.call tokens call = ((before.call tokens call).1, after) := by
    simp only [after, afterCalls, List.foldl_append]
    rfl
  have hrun := (completes_iff hplace).2 hcall
  have hread := hrun.agrees
  refine ⟨_, hcall, fun other stop => ?_, hread.place_le, hread.le_length,
    exists_current? hread.le_length, ⟨_, hread.reports_eq.symm⟩, fun hnone => ?_, fun hnode => ?_⟩
  · rw [completes_iff hplace, hcall, Prod.mk.injEq, eq_comm, @eq_comm _ after]
  · rw [hnone] at hrun
    exact hrun.reports_lt
  · subst hnode
    exact ReadsNode.place_lt hrun

/-- A root is refused in front of a closing parenthesis.  A node is then read from this one on to
the end: its type is missing, and its inner node is not closed either.  At the end once more no node
is read, and that is reported. -/
theorem calls_stay_inside_astray :
    let tokens : Tokens := ⟨[.over 0 [')'] .closing, .over 1 ['('] .opening,
      .over 2 "nil".toList (.identifier "nil")], 5⟩
    let refused := afterCalls tokens [.root]
    let ended := afterCalls tokens [.root, .node]
    let again := afterCalls tokens [.root, .node, .node]
    refused.place < tokens.toList.length ∧ refused.place < ended.place ∧
      refused.call tokens .node = (none, ended) ∧ ended.place = 3 ∧
      ended.current? tokens = some none ∧ ended.call tokens .node = (none, again) ∧
      ended.reports.length < again.reports.length := by
  intro tokens refused ended again
  have hstart : refused.place < tokens.toList.length := by decide +kernel
  have hended : ended.place = 3 := by decide +kernel
  have hcurrent : ended.current? tokens = some none := by
    rw [current?, hended]
    rfl
  have hfirst : (refused.call tokens .node).1 = none := by decide +kernel
  have hsecond : (ended.call tokens .node).1 = none := by decide +kernel
  rcases calls_stay_inside tokens [.root] .node with ⟨node, hcall, -, -, -, -, -, -, hmoves⟩
  rcases calls_stay_inside tokens [.root, .node] .node with
    ⟨other, hother, -, -, -, -, -, hgrows, -⟩
  obtain rfl : node = none := (congrArg Prod.fst hcall).symm.trans hfirst
  obtain rfl : other = none := (congrArg Prod.fst hother).symm.trans hsecond
  exact ⟨hstart, hmoves rfl hstart, hcall, hended, hcurrent, hother, hgrows rfl⟩

end Calls

end Reader

end RubyTree.Sexp
