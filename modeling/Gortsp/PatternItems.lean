import Gortsp.PatternFormatter
import Mathlib.Data.List.TakeWhile

namespace Gortsp
set_option autoImplicit true

namespace PatternFormatter

def notPercent (c : Char) : Bool := c ≠ '%'

/-- The padding and the flag of a directive that can be told apart when they are read. -/
def Readable (padding : PaddingInfo) (flag : Char) : Prop :=
  (padding = .none ∧ flag.isDigit = false) ∨
    (padding.enabled = true ∧ padding.width ≤ maxWidth ∧
      (padding.truncate = true ∨ flag.isDigit = false ∧ flag ≠ '!'))

inductive Item where
  | text (chars : List Char) (hne : chars ≠ []) (hpercent : '%' ∉ chars)
  | directive (padding : PaddingInfo) (flag : Char) (h : Readable padding flag)

namespace Item

def isText : Item → Bool
  | .text _ _ _ => true
  | .directive _ _ _ => false

def formatters : Item → List Formatter
  | .text chars _ _ => [.aggregate chars]
  | .directive padding flag _ => handleFlag flag padding

def unpadded : Char → Option Formatter
  | '+' => some .full
  | '^' => some .colorStart
  | '$' => some .colorStop
  | '%' => some (.ch '%')
  | _ => none

/-- What a piece stands for. A field has the padding that is written before its flag, with its
width, side and truncation. Where a flag is unknown, a `!` before it was the flag of the function
name. -/
inductive Denotes : Item → List Formatter → Prop where
  | text (chars hne hpercent) : Denotes (.text chars hne hpercent) [.aggregate chars]
  | unpadded (padding flag h) (hmark : unpadded flag = some f) :
      Denotes (.directive padding flag h) [f]
  | field (padding flag h) (hkind : flagOf flag = some kind) :
      Denotes (.directive padding flag h) [.flag kind padding]
  | unknown (padding flag h) (hmark : unpadded flag = none) (hkind : flagOf flag = none)
      (hcut : padding.truncate = false) :
      Denotes (.directive padding flag h) [.aggregate ['%', flag]]
  | function (width side flag h) (hmark : unpadded flag = none) (hkind : flagOf flag = none) :
      Denotes (.directive ⟨width, side, true, true⟩ flag h)
        [.flag .sourceFuncname ⟨width, side, false, true⟩, .aggregate [flag]]

end Item

def Separated : List Item → Prop
  | [] => True
  | item :: items =>
    (item.isText = true → ∀ next ∈ items.head?, next.isText = false) ∧ Separated items

def sideChars : PadSide → List Char
  | .left => []
  | .right => ['-']
  | .center => ['=']

def truncateChars : Bool → List Char
  | true => ['!']
  | false => []

/-- How a padding is written. Without one, a flag that could be taken for a side is set apart by
a side that is skipped. -/
def renderPadding (padding : PaddingInfo) (flag : Char) : List Char :=
  if padding.enabled = true then
    sideChars padding.side ++ Nat.toDigits 10 padding.width ++ truncateChars padding.truncate
  else if flag = '-' ∨ flag = '=' then ['-']
  else []

def Item.render : Item → List Char
  | .text chars _ _ => chars
  | .directive padding flag _ => '%' :: (renderPadding padding flag ++ [flag])

def render (items : List Item) : List Char := items.flatMap Item.render

theorem readWidth_digits {digits : List Char} (h : ∀ c ∈ digits, c.isDigit = true)
    {it : List Char} (hit : ∀ c ∈ it.head?, c.isDigit = false) (width : Nat) :
    readWidth (width % sizeMod) (digits ++ it) =
      (Nat.ofDigitChars 10 digits width % sizeMod, it) := by
  induction digits generalizing width with
  | nil =>
    rw [List.nil_append, Nat.ofDigitChars_nil]
    cases it with
    | nil => rfl
    | cons c it =>
      have hc : ¬c.isDigit = true := by
        rw [hit c rfl]
        exact Bool.false_ne_true
      rw [readWidth, if_neg hc]
  | cons c digits ih =>
    obtain ⟨hc, hdigits⟩ := List.forall_mem_cons.1 h
    have hmod : (width % sizeMod * 10 + (c.toNat - '0'.toNat)) % sizeMod =
        (10 * width + (c.toNat - '0'.toNat)) % sizeMod := by
      rw [sizeMod]
      omega
    rw [List.cons_append, readWidth, if_pos hc, hmod, ih hdigits, Nat.ofDigitChars_cons]

theorem padSide_digit {c : Char} (h : c.isDigit = true) (it : List Char) :
    padSide (c :: it) = (.left, c :: it) := by
  unfold padSide
  split
  · next he =>
    cases he
    cases h
  · next he =>
    cases he
    cases h
  · rfl

theorem padSide_sideChars (side : PadSide) {c : Char} (h : c.isDigit = true) (it : List Char) :
    padSide (sideChars side ++ c :: it) = (side, c :: it) := by
  cases side with
  | left => exact padSide_digit h it
  | right => rfl
  | center => rfl

theorem readTruncate_other {flag : Char} (h : flag ≠ '!') (it : List Char) :
    readTruncate (flag :: it) = (false, flag :: it) := by
  unfold readTruncate
  split
  · next he =>
    cases he
    exact absurd rfl h
  · rfl

theorem padSide_other {flag : Char} (hright : flag ≠ '-') (hcenter : flag ≠ '=')
    (it : List Char) : padSide (flag :: it) = (.left, flag :: it) := by
  unfold padSide
  split
  · next he =>
    cases he
    exact absurd rfl hright
  · next he =>
    cases he
    exact absurd rfl hcenter
  · rfl

theorem handlePadspec_flag {it rest : List Char} (hside : padSide it = (side, flag :: rest))
    (hflag : flag.isDigit = false) : handlePadspec it = (.none, flag :: rest) := by
  simp only [handlePadspec, hside, hflag, Bool.false_eq_true, if_false]

theorem digit_mod {c : Char} (h : c.isDigit = true) :
    (c.toNat - '0'.toNat) % sizeMod = c.toNat - '0'.toNat := by
  have hle : c.toNat ≤ '9'.toNat := (Char.isDigit_iff_toNat.1 h).2
  have hnine : '9'.toNat < sizeMod := by decide
  exact Nat.mod_eq_of_lt (by omega)

theorem readWidth_toDigits {c : Char} {digits it : List Char}
    (hdigits : Nat.toDigits 10 width = c :: digits) (hwidth : width ≤ maxWidth)
    (hit : ∀ c ∈ it.head?, c.isDigit = false) :
    c.isDigit = true ∧ readWidth (c.toNat - '0'.toNat) (digits ++ it) = (width, it) := by
  have hall (d : Char) (hd : d ∈ c :: digits) : d.isDigit = true := by
    rw [← hdigits] at hd
    exact Nat.isDigit_of_mem_toDigits (by decide) (by decide) hd
  obtain ⟨hc, hrest⟩ := List.forall_mem_cons.1 hall
  have hvalue : Nat.ofDigitChars 10 digits (c.toNat - '0'.toNat) = width := by
    have hfull := Nat.ofDigitChars_toDigits (b := 10) (n := width) (by decide) (by decide)
    rw [hdigits, Nat.ofDigitChars_cons, Nat.mul_zero, Nat.zero_add] at hfull
    exact hfull
  have hread := readWidth_digits hrest hit (c.toNat - '0'.toNat)
  have hsmall : width < sizeMod := Nat.lt_of_le_of_lt hwidth (by decide)
  rw [digit_mod hc, hvalue, Nat.mod_eq_of_lt hsmall] at hread
  exact ⟨hc, hread⟩

theorem handlePadspec_width {it rest : List Char} {c : Char}
    (hside : padSide it = (side, c :: rest)) (hc : c.isDigit = true)
    (hwidth : readWidth (c.toNat - '0'.toNat) rest = (width, tail)) :
    handlePadspec it = (⟨min width maxWidth, side, (readTruncate tail).1, true⟩,
      (readTruncate tail).2) := by
  simp only [handlePadspec, hside, hc, if_true, hwidth]

theorem truncateChars_head {truncate : Bool} {flag : Char} (it : List Char)
    (h : truncate = true ∨ flag.isDigit = false ∧ flag ≠ '!') :
    (∀ c ∈ (truncateChars truncate ++ flag :: it).head?, c.isDigit = false) ∧
      readTruncate (truncateChars truncate ++ flag :: it) = (truncate, flag :: it) := by
  cases truncate with
  | true =>
    refine ⟨fun c hc => ?_, rfl⟩
    cases hc
    rfl
  | false =>
    obtain ⟨hflag, hne⟩ := h.resolve_left Bool.false_ne_true
    refine ⟨fun c hc => ?_, readTruncate_other hne it⟩
    cases hc
    exact hflag

theorem handlePadspec_render {padding : PaddingInfo} {flag : Char} (h : Readable padding flag)
    (it : List Char) :
    handlePadspec (renderPadding padding flag ++ flag :: it) = (padding, flag :: it) := by
  rcases h with ⟨rfl, hflag⟩ | ⟨henabled, hwidth, htruncate⟩
  · by_cases hside : flag = '-' ∨ flag = '='
    · have hrender : renderPadding .none flag = ['-'] := if_pos hside
      rw [hrender]
      have hside : padSide ('-' :: flag :: it) = (.right, flag :: it) := rfl
      exact handlePadspec_flag hside hflag
    · have hrender : renderPadding .none flag = [] := if_neg hside
      rw [hrender]
      rw [not_or] at hside
      exact handlePadspec_flag (padSide_other hside.1 hside.2 it) hflag
  · obtain ⟨hhead, hread⟩ := truncateChars_head it htruncate
    obtain ⟨c, digits, hdigits⟩ :=
      List.exists_cons_of_ne_nil (Nat.toDigits_ne_nil (n := padding.width) (b := 10))
    obtain ⟨hc, hnumber⟩ := readWidth_toDigits hdigits hwidth hhead
    have hside := padSide_sideChars padding.side hc
      (digits ++ (truncateChars padding.truncate ++ flag :: it))
    have hpad := handlePadspec_width hside hc hnumber
    rw [hread, Nat.min_eq_left hwidth, ← henabled] at hpad
    rw [renderPadding, if_pos henabled, hdigits, List.append_assoc, List.append_assoc]
    exact hpad

theorem readWidth_head (width : Nat) (it : List Char) :
    ∀ c ∈ (readWidth width it).2.head?, c.isDigit = false := by
  induction it generalizing width with
  | nil =>
    intro c hc
    cases hc
  | cons d it ih =>
    rw [readWidth]
    by_cases hd : d.isDigit = true
    · rw [if_pos hd]
      exact ih _
    · rw [if_neg hd]
      intro c hc
      cases hc
      exact Bool.eq_false_iff.2 hd

theorem readTruncate_readable {it rest : List Char} {flag : Char}
    (hit : ∀ c ∈ it.head?, c.isDigit = false) (h : readTruncate it = (truncate, flag :: rest)) :
    truncate = true ∨ flag.isDigit = false ∧ flag ≠ '!' := by
  unfold readTruncate at h
  split at h
  · cases h
    exact .inl rfl
  · next hno =>
    cases h
    right
    refine ⟨hit flag rfl, fun he => ?_⟩
    exact hno rest (by rw [he])

theorem handlePadspec_readable {it rest : List Char} {padding : PaddingInfo} {flag : Char}
    (h : handlePadspec it = (padding, flag :: rest)) : Readable padding flag := by
  cases hside : padSide it with
  | mk side after =>
    cases after with
    | nil =>
      simp only [handlePadspec, hside] at h
      cases h
    | cons c tail =>
      by_cases hc : c.isDigit = true
      · cases hwidth : readWidth (c.toNat - '0'.toNat) tail with
        | mk width tail' =>
          have hhead := readWidth_head (c.toNat - '0'.toNat) tail
          rw [hwidth] at hhead
          rw [handlePadspec_width hside hc hwidth, Prod.mk.injEq] at h
          obtain ⟨rfl, hrest⟩ := h
          right
          refine ⟨rfl, Nat.min_le_right _ _, ?_⟩
          exact readTruncate_readable hhead (Prod.ext rfl hrest)
      · rw [handlePadspec_flag hside (Bool.eq_false_iff.2 hc)] at h
        cases h
        exact .inl ⟨rfl, Bool.eq_false_iff.2 hc⟩

theorem percent_not_mem_text {c : Char} (h : c ≠ '%') (it : List Char) :
    '%' ∉ c :: it.takeWhile notPercent := by
  intro hmem
  rcases List.mem_cons.1 hmem with he | hmem
  · exact h he.symm
  · have hne : notPercent '%' = true := List.mem_takeWhile_imp hmem
    cases hne

/-- A pattern as the texts and directives that `compile_pattern_` finds in it. A directive that
the end of the pattern cuts off is left out. -/
def parse : List Char → List Item
  | [] => []
  | c :: it =>
    if hc : c = '%' then
      match h : handlePadspec it with
      | (_, []) => []
      | (padding, flag :: rest) =>
        .directive padding flag (handlePadspec_readable h) :: parse rest
    else .text (c :: it.takeWhile notPercent) (List.cons_ne_nil _ _)
        (percent_not_mem_text hc it) ::
      parse (it.dropWhile notPercent)
termination_by it => it.length
decreasing_by
  · have hlen := handlePadspec_length_le it
    rw [h, List.length_cons] at hlen
    rw [List.length_cons]
    omega
  · have hlen := (List.dropWhile_suffix notPercent (l := it)).length_le
    rw [List.length_cons]
    omega

theorem parse_nil : parse [] = [] := by
  rw [parse]

theorem parse_cut {it : List Char} {padding : PaddingInfo} (h : handlePadspec it = (padding, [])) :
    parse ('%' :: it) = [] := by
  rw [parse, dif_pos rfl]
  split
  · rfl
  · next he =>
    rw [h] at he
    cases he

theorem parse_directive {it rest : List Char} {padding : PaddingInfo} {flag : Char}
    (h : handlePadspec it = (padding, flag :: rest)) :
    parse ('%' :: it) = .directive padding flag (handlePadspec_readable h) :: parse rest := by
  rw [parse, dif_pos rfl]
  split
  · next he =>
    rw [h] at he
    cases he
  · next he =>
    rw [h] at he
    cases he
    rfl

theorem parse_text {c : Char} (h : c ≠ '%') (it : List Char) :
    parse (c :: it) = .text (c :: it.takeWhile notPercent) (List.cons_ne_nil _ _)
      (percent_not_mem_text h it) :: parse (it.dropWhile notPercent) := by
  rw [parse, dif_neg h]

theorem compileLoop_cut {it : List Char} {padding : PaddingInfo}
    (h : handlePadspec it = (padding, [])) (formatters : List Formatter)
    (chars : Option (List Char)) :
    compileLoop formatters chars ('%' :: it) = formatters ++ userChars chars := by
  rw [compileLoop, if_pos rfl]
  split
  · rfl
  · next he =>
    rw [h] at he
    cases he

theorem compileLoop_directive {it rest : List Char} {padding : PaddingInfo} {flag : Char}
    (h : handlePadspec it = (padding, flag :: rest)) (formatters : List Formatter)
    (chars : Option (List Char)) :
    compileLoop formatters chars ('%' :: it) =
      compileLoop (formatters ++ userChars chars ++ handleFlag flag padding) none rest := by
  rw [compileLoop, if_pos rfl]
  split
  · next he =>
    rw [h] at he
    cases he
  · next he =>
    rw [h] at he
    cases he
    rfl

/-- The user characters that the loop carries, with those still to come before the next `%`. -/
def gathered (chars : Option (List Char)) (it : List Char) : List Formatter :=
  match chars with
  | some str => .aggregate (str ++ it.takeWhile notPercent) ::
      (parse (it.dropWhile notPercent)).flatMap Item.formatters
  | none => (parse it).flatMap Item.formatters

theorem gathered_percent (chars : Option (List Char)) (it : List Char) :
    gathered chars ('%' :: it) =
      userChars chars ++ (parse ('%' :: it)).flatMap Item.formatters := by
  cases chars with
  | none => rfl
  | some str =>
    have hnil : str ++ ('%' :: it).takeWhile notPercent = str := List.append_nil str
    simp only [gathered, userChars, hnil]
    rfl

theorem gathered_text {c : Char} (h : c ≠ '%') (chars : Option (List Char)) (it : List Char) :
    gathered chars (c :: it) = gathered (some (chars.getD [] ++ [c])) it := by
  have hc : notPercent c = true := decide_eq_true h
  cases chars with
  | none =>
    simp only [gathered, parse_text h, List.flatMap_cons, Item.formatters, Option.getD_none,
      List.nil_append, List.singleton_append]
  | some str =>
    simp only [gathered, List.takeWhile_cons_of_pos hc, List.dropWhile_cons_of_pos hc,
      Option.getD_some, List.append_assoc, List.singleton_append]

theorem compileLoop_eq (formatters : List Formatter) (chars : Option (List Char))
    (it : List Char) : compileLoop formatters chars it = formatters ++ gathered chars it := by
  induction hlen : it.length using Nat.strong_induction_on generalizing formatters chars it with
  | _ n ih =>
    cases it with
    | nil =>
      rw [compileLoop]
      cases chars with
      | none =>
        rw [gathered, parse_nil]
        rfl
      | some str =>
        rw [gathered, List.takeWhile_nil, List.append_nil, List.dropWhile_nil, parse_nil]
        rfl
    | cons c it =>
      rw [List.length_cons] at hlen
      by_cases hc : c = '%'
      · subst hc
        rw [gathered_percent]
        cases h : handlePadspec it with
        | mk padding rest =>
          cases rest with
          | nil =>
            rw [compileLoop_cut h, parse_cut h, List.flatMap_nil, List.append_nil]
          | cons flag rest =>
            have hrest := handlePadspec_length_le it
            rw [h, List.length_cons] at hrest
            rw [compileLoop_directive h, parse_directive h,
              ih rest.length (by omega) _ _ _ rfl, List.flatMap_cons]
            simp only [gathered, Item.formatters, List.append_assoc]
      · rw [compileLoop, if_neg hc, ih it.length (by omega) _ _ _ rfl, gathered_text hc]

theorem compile_parse (pattern : List Char) :
    compile pattern = (parse pattern).flatMap Item.formatters :=
  compileLoop_eq [] none pattern

theorem render_head {items : List Item} (h : ∀ next ∈ items.head?, next.isText = false) :
    render items = [] ∨ ∃ it, render items = '%' :: it := by
  cases items with
  | nil => exact .inl rfl
  | cons item items =>
    cases item with
    | text chars hne hpercent => exact absurd (h _ rfl) Bool.noConfusion
    | directive padding flag hread =>
      right
      exact ⟨renderPadding padding flag ++ [flag] ++ render items, rfl⟩

theorem takeWhile_text {chars rest : List Char} (h : '%' ∉ chars)
    (hrest : rest = [] ∨ ∃ it, rest = '%' :: it) :
    (chars ++ rest).takeWhile notPercent = chars ∧
      (chars ++ rest).dropWhile notPercent = rest := by
  have hall (c : Char) (hc : c ∈ chars) : notPercent c = true := by
    apply decide_eq_true
    rintro rfl
    exact h hc
  rw [List.takeWhile_append_of_pos hall, List.dropWhile_append_of_pos hall]
  rcases hrest with rfl | ⟨it, rfl⟩
  · exact ⟨List.append_nil _, rfl⟩
  · exact ⟨List.append_nil _, rfl⟩

theorem parse_render {items : List Item} (h : Separated items) : parse (render items) = items := by
  induction items with
  | nil => exact parse_nil
  | cons item items ih =>
    obtain ⟨hnext, hitems⟩ := h
    cases item with
    | text chars hne hpercent =>
      obtain ⟨c, tail, rfl⟩ := List.exists_cons_of_ne_nil hne
      have hc : c ≠ '%' := by
        rintro rfl
        exact hpercent List.mem_cons_self
      obtain ⟨htake, hdrop⟩ := takeWhile_text (fun hmem => hpercent (List.mem_cons_of_mem c hmem))
        (render_head (hnext rfl))
      change parse (c :: (tail ++ render items)) = _
      rw [parse_text hc]
      simp only [htake, hdrop, ih hitems]
    | directive padding flag hread =>
      have hspec := handlePadspec_render hread (render items)
      change parse ('%' :: (renderPadding padding flag ++ [flag] ++ render items)) = _
      rw [List.append_assoc, List.singleton_append, parse_directive hspec, ih hitems]

theorem parse_head_text {it : List Char} (h : ∀ c ∈ it.head?, c = '%') :
    ∀ next ∈ (parse it).head?, next.isText = false := by
  intro next hnext
  cases it with
  | nil =>
    rw [parse_nil] at hnext
    cases hnext
  | cons c it =>
    cases h c rfl
    cases hspec : handlePadspec it with
    | mk padding rest =>
      cases rest with
      | nil =>
        rw [parse_cut hspec] at hnext
        cases hnext
      | cons flag rest =>
        rw [parse_directive hspec] at hnext
        cases hnext
        rfl

theorem dropWhile_head (it : List Char) : ∀ c ∈ (it.dropWhile notPercent).head?, c = '%' := by
  intro c hc
  have hnot := List.head?_dropWhile_not notPercent it
  rw [Option.mem_def.1 hc] at hnot
  exact not_not.1 (of_decide_eq_false hnot)

theorem parse_separated (pattern : List Char) : Separated (parse pattern) := by
  induction hlen : pattern.length using Nat.strong_induction_on generalizing pattern with
  | _ n ih =>
    cases pattern with
    | nil =>
      rw [parse_nil]
      trivial
    | cons c it =>
      rw [List.length_cons] at hlen
      by_cases hc : c = '%'
      · subst hc
        cases hspec : handlePadspec it with
        | mk padding rest =>
          cases rest with
          | nil =>
            rw [parse_cut hspec]
            trivial
          | cons flag rest =>
            have hrest := handlePadspec_length_le it
            rw [hspec, List.length_cons] at hrest
            rw [parse_directive hspec]
            refine ⟨fun hno => absurd hno Bool.noConfusion, ih rest.length (by omega) rest rfl⟩
      · have hrest := (List.dropWhile_suffix notPercent (l := it)).length_le
        rw [parse_text hc]
        refine ⟨fun _ => parse_head_text (dropWhile_head it), ?_⟩
        exact ih _ (by omega) _ rfl

theorem Readable.enabled (h : Readable padding flag) (hcut : padding.truncate = true) :
    padding.enabled = true := by
  rcases h with ⟨rfl, -⟩ | ⟨henabled, -⟩
  · cases hcut
  · exact henabled

theorem Item.formatters_denotes (item : Item) : item.Denotes item.formatters := by
  cases item with
  | text chars hne hpercent => exact .text chars hne hpercent
  | directive padding flag h =>
    rw [formatters]
    unfold handleFlag
    split
    · exact .unpadded padding _ h rfl
    · exact .unpadded padding _ h rfl
    · exact .unpadded padding _ h rfl
    · exact .unpadded padding _ h rfl
    · next hfull hstart hstop hpercent =>
      have hmark : unpadded flag = none := by
        unfold unpadded
        split
        · exact absurd rfl hfull
        · exact absurd rfl hstart
        · exact absurd rfl hstop
        · exact absurd rfl hpercent
        · rfl
      split
      · next hkind => exact .field padding flag h hkind
      · next hkind =>
        split
        · next hcut => exact .unknown padding flag h hmark hkind hcut
        · next hcut =>
          obtain ⟨width, side, truncate, enabled⟩ := padding
          rw [Bool.not_eq_false] at hcut
          cases hcut
          cases h.enabled rfl
          exact .function width side flag h hmark hkind

/-- Round trip: a pattern that is written from texts and directives is compiled to what they
stand for, each in its place. -/
theorem compile_render {items : List Item} (h : Separated items) :
    compile (render items) = items.flatMap Item.formatters ∧
      ∀ item ∈ items, item.Denotes item.formatters := by
  refine ⟨?_, fun item _ => item.formatters_denotes⟩
  rw [compile_parse, parse_render h]

theorem compile_render_thread :
    ∃ h : Readable ⟨5, .left, false, true⟩ 't',
      Separated [.directive ⟨5, .left, false, true⟩ 't' h, .text [' '] (by decide) (by decide)] ∧
      compile ['%', '5', 't', ' '] = [.flag .t ⟨5, .left, false, true⟩, .aggregate [' ']] ∧
      ∀ item ∈ [.directive ⟨5, .left, false, true⟩ 't' h, .text [' '] (by decide) (by decide)],
        Item.Denotes item item.formatters := by
  have h : Readable ⟨5, .left, false, true⟩ 't' := .inr (by decide)
  have hsep : Separated
      [.directive ⟨5, .left, false, true⟩ 't' h, .text [' '] (by decide) (by decide)] := by
    refine ⟨fun hno => absurd hno Bool.noConfusion, ⟨fun _ next hnext => ?_, trivial⟩⟩
    cases hnext
  exact ⟨h, hsep, compile_render hsep⟩

/-- Every pattern, however malformed, is compiled to the formatters of a canonical one. -/
theorem parse_canonical (pattern : List Char) :
    Separated (parse pattern) ∧ compile pattern = (parse pattern).flatMap Item.formatters ∧
      compile (render (parse pattern)) = compile pattern ∧
      parse (render (parse pattern)) = parse pattern := by
  have hsep := parse_separated pattern
  refine ⟨hsep, compile_parse pattern, ?_, parse_render hsep⟩
  rw [compile_parse, parse_render hsep, compile_parse]

end PatternFormatter

end Gortsp
