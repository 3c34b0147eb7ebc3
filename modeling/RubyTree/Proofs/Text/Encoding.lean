import Mathlib.Data.List.Forall2
import RubyTree.Proofs.Text.Runs
import RubyTree.Text.CodePoint

/-!
# Texts and their marked forms

Two strings are twins if they stand for one text, the second one of them marked.  They
are equal but for the surrogates of the text, so the text is known from both, and its
characters are the first one of them.

Main results:

- `Twin` relates two characters for one code point, and `twin_charAt` says that every code
  point has two.
- `map_charAt_codesOf`: the characters of the text are the string that is not marked.
- `encodeCodes_eq_ok` and `FirstRun.encodeCodes_eq`: a text is encoded if no surrogate stands in it,
  and else (`exists_firstRun`) its first run of surrogates is in error.
-/

namespace RubyTree.Text

/-! ## Twins -/

/-- Two characters stand for one code point, the second one in a marked string. -/
inductive Twin : Char → Char → Prop
  /-- A character stands for itself in both. -/
  | same (c : Char) : Twin c c
  /-- A surrogate is marked. -/
  | surrogate {code : Nat} (h : isSurrogate code = true) : Twin (charAt code) (markedCharAt code)

/-- The two characters for a code point are twins. -/
theorem twin_charAt (code : Nat) : Twin (charAt code) (markedCharAt code) := by
  by_cases h : isSurrogate code = true
  · exact .surrogate h
  · rw [markedCharAt, if_neg h]
    exact .same _

namespace Twin

variable {plain marked : Char}

/-- A character of which there are two is none of ASCII, and neither is the other one. -/
theorem eq_or_not_ascii (h : Twin plain marked) :
    plain = marked ∨ 0x80 ≤ plain.toNat ∧ 0x80 ≤ marked.toNat := by
  cases h with
  | same => exact .inl rfl
  | surrogate h =>
    rcases charAt_of_isSurrogate h with ⟨hplain, hmarked⟩
    right
    rw [hplain, hmarked, firstMark]
    constructor
    · decide
    · omega

/-- The character of the code point is the one that is not marked. -/
theorem charAt_codeOf (h : Twin plain marked) : charAt (codeOf plain marked) = plain := by
  cases h with
  | same => rw [codeOf, if_pos rfl, charAt_toNat]
  | surrogate h =>
    have hrange := isSurrogate_iff.1 h
    rw [codeOf_charAt (by omega)]

end Twin

/-- Every text is the twin of itself. -/
theorem twins_refl (text : List Char) : List.Forall₂ Twin text text :=
  List.forall₂_same.2 fun c _ => .same c

/-- The characters for the code points of a text are twins. -/
theorem twins_map (codes : List Nat) :
    List.Forall₂ Twin (codes.map charAt) (codes.map markedCharAt) := by
  rw [List.forall₂_map_left_iff, List.forall₂_map_right_iff, List.forall₂_same]
  exact fun code _ => twin_charAt code

/-- Two strings are twins, character by character. -/
def Twins (plain marked : String) : Prop :=
  List.Forall₂ Twin plain.toList marked.toList

namespace Twins

variable {plain marked front markedFront back markedBack : String}

protected theorem refl (text : String) : Twins text text :=
  twins_refl text.toList

theorem append (hfront : Twins front markedFront) (hback : Twins back markedBack) :
    Twins (front ++ back) (markedFront ++ markedBack) := by
  rw [Twins, String.toList_append, String.toList_append]
  exact List.rel_append hfront hback

/-- Twins with the same separator between them are twins. -/
theorem intercalate (separator : String) {texts markedTexts : List String}
    (h : List.Forall₂ Twins texts markedTexts) :
    Twins (separator.intercalate texts) (separator.intercalate markedTexts) := by
  induction h with
  | nil => exact .refl _
  | cons hhead hrest ih =>
    cases hrest with
    | nil =>
      rw [String.intercalate_singleton, String.intercalate_singleton]
      exact hhead
    | cons =>
      rw [String.intercalate_cons_cons, String.intercalate_cons_cons]
      exact (hhead.append (.refl separator)).append ih

end Twins

/-- The characters of the text that twins stand for are those that are not marked. -/
theorem map_charAt_codesOf {plain marked : List Char} (h : List.Forall₂ Twin plain marked) :
    (codesOf plain marked).map charAt = plain := by
  induction h with
  | nil => rfl
  | @cons a b plain marked hhead _ ih =>
    rw [codesOf, List.zipWith_cons_cons, List.map_cons, hhead.charAt_codeOf]
    exact congrArg (a :: ·) ih

/-! ## Encoding -/

/-- A text without surrogates is encoded. -/
theorem encodeCodes_eq_ok {codes : List Nat} (h : ∀ code ∈ codes, isSurrogate code = false) :
    encodeCodes codes = .ok (String.ofList (codes.map charAt)) := by
  have hfront : codes.takeWhile (fun code => !isSurrogate code) = codes :=
    List.takeWhile_eq_self_iff.2 fun code hcode => by rw [h code hcode, Bool.not_false]
  simp only [encodeCodes, hfront, List.drop_length, List.takeWhile_nil]

/-- The first run of surrogates in a text: none stands before it, and none right behind it. -/
inductive FirstRun : List Nat → EncodeError → Prop
  /-- The run, between what stands in front and the rest. -/
  | between {front more rest : List Nat} {code : Nat}
      (hfront : ∀ c ∈ front, isSurrogate c = false)
      (hrun : ∀ c ∈ code :: more, isSurrogate c = true)
      (hrest : ∀ c ∈ rest.head?, isSurrogate c = false) :
      FirstRun (front ++ (code :: more ++ rest)) ⟨front.length, code, more.length⟩

/-- The first run of surrogates is in error. -/
theorem FirstRun.encodeCodes_eq {codes : List Nat} {cause : EncodeError}
    (h : FirstRun codes cause) : encodeCodes codes = .error cause := by
  cases h with
  | @between front more rest code hfront hrun hrest =>
    have hbefore : (front ++ (code :: more ++ rest)).takeWhile (fun c => !isSurrogate c) =
        front := by
      apply takeWhile_run
      · intro c hc
        rw [hfront c hc, Bool.not_false]
      · intro c hc
        obtain rfl : code = c := Option.some.inj hc
        rw [hrun code List.mem_cons_self, Bool.not_true]
    have hsurrogates : (code :: more ++ rest).takeWhile isSurrogate = code :: more :=
      takeWhile_run hrun hrest
    simp only [encodeCodes, hbefore, List.drop_left, hsurrogates]

/-- A text that holds a surrogate has a first run of them. -/
theorem exists_firstRun {codes : List Nat} (h : ∃ code ∈ codes, isSurrogate code = true) :
    ∃ cause, FirstRun codes cause := by
  rcases h with ⟨found, hmem, hfound⟩
  induction codes with
  | nil => cases hmem
  | cons first codes ih =>
    by_cases hfirst : isSurrogate first = true
    · have hcut : first :: codes =
          [] ++ (first :: codes.takeWhile isSurrogate ++ codes.dropWhile isSurrogate) := by
        rw [List.nil_append, List.cons_append, List.takeWhile_append_dropWhile]
      rw [hcut]
      refine ⟨_, .between (fun c hc => absurd hc List.not_mem_nil) ?_ ?_⟩
      · exact List.forall_mem_cons.2 ⟨hfirst, fun c hc => List.mem_takeWhile_imp hc⟩
      · intro c hc
        cases hrest : codes.dropWhile isSurrogate with
        | nil =>
          rw [hrest] at hc
          cases hc
        | cons d rest =>
          rw [hrest] at hc
          obtain rfl : d = c := Option.some.inj hc
          exact head_dropWhile hrest
    · rw [Bool.not_eq_true] at hfirst
      have hrest : found ∈ codes := by
        rcases List.mem_cons.1 hmem with rfl | hrest
        · cases hfirst.symm.trans hfound
        · exact hrest
      rcases ih hrest with ⟨_, hfront, hrun, hbehind⟩
      exact ⟨_, .between (List.forall_mem_cons.2 ⟨hfirst, hfront⟩) hrun hbehind⟩

end RubyTree.Text
