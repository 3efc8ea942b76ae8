import Gortsp.LogLine
import Gortsp.PatternItems

namespace Gortsp
set_option autoImplicit true

namespace FmtHelper

theorem countDigits_eq (n : Nat) : countDigits n = (appendInt n).length := by
  induction n using countDigits.induct with
  | case1 n hlt =>
    rw [countDigits, if_pos hlt, appendInt, Nat.toDigits_of_lt_base hlt]
    rfl
  | case2 n hge ih =>
    rw [countDigits, if_neg hge, ih, appendInt, appendInt,
      Nat.toDigits_of_base_le (by decide) (Nat.le_of_not_lt hge), List.length_append]
    rfl

theorem pad2_length (h : n < 100) : (pad2 n).length = 2 := by
  rw [pad2, if_pos h]
  rfl

theorem pad3_length (h : n < 1000) : (pad3 n).length = 3 := by
  rw [pad3, if_pos h]
  rfl

theorem padUint_length {n width : Nat} (hpos : 0 < width) (h : n < 10 ^ width) :
    (padUint n width).length = width := by
  have hle : (appendInt n).length ≤ width :=
    (Nat.length_toDigits_le_iff (by decide) hpos).2 h
  rw [padUint, List.length_append, List.length_replicate, countDigits_eq]
  omega

end FmtHelper

open FmtHelper

/-- Of these flags the announced size is the size of what is appended. Of the others it is a
constant that the text need not have: `%D` announces 10 for a date of 8. -/
def Flag.sized : Flag → Bool
  | .c | .Y | .D | .E | .z => false
  | _ => true

namespace Flag

variable {kind : Flag} {field : Field} {env : FormatEnv} {memo : Memo} {msg : LogMsg} {tm : Tm}

theorem ampm_length (tm : Tm) : tm.ampm.length = 2 := by
  rw [Tm.ampm]
  split
  · rfl
  · rfl

theorem to12h_lt (tm : Tm) : tm.to12h < 100 := by
  have hhour := tm.hour.isLt
  rw [Tm.to12h]
  split
  · omega
  · omega

theorem field_sized (hk : kind.sized = true) (h : kind.field env memo msg tm = some field) :
    field.size = field.text.length := by
  have hmon : tm.mon.val + 1 < 100 := by omega
  have hmday : tm.mday.val < 100 := by omega
  have hyear : tm.year % 100 < 100 := Nat.mod_lt _ (by decide)
  have hhour : tm.hour.val < 100 := by omega
  have hmin : tm.min.val < 100 := by omega
  have hsec : tm.sec.val < 100 := by omega
  cases kind with
  | c | Y | D | E | z => cases hk
  | name | level | shortLevel | v | a | A | b | B =>
    cases h
    rfl
  | t | pid =>
    cases h
    exact countDigits_eq _
  | C | m | d | H | M | S | I | R | T =>
    cases h
    simp [pad2_length, hmon, hmday, hyear, hhour, hmin, hsec, to12h_lt]
  | p =>
    cases h
    exact (ampm_length tm).symm
  | r =>
    cases h
    simp [pad2_length, hmin, hsec, to12h_lt, ampm_length]
  | e =>
    cases h
    have hlt : timeFraction 1000 msg.time < 1000 := by
      rw [timeFraction]
      omega
    exact (pad3_length hlt).symm
  | f =>
    cases h
    have hlt : timeFraction 1000000 msg.time < 10 ^ 6 := by
      rw [timeFraction]
      omega
    exact (padUint_length (by decide) hlt).symm
  | F =>
    cases h
    have hlt : timeFraction 1000000000 msg.time < 10 ^ 9 := by
      rw [timeFraction]
      omega
    exact (padUint_length (by decide) hlt).symm
  | sourceLocation =>
    simp only [Flag.field] at h
    split at h
    · cases h
    · cases h
      simp only [List.length_append, List.length_cons, countDigits_eq]
      omega
  | shortFilename | sourceFilename | sourceFuncname =>
    simp only [Flag.field] at h
    split at h
    · cases h
    · cases h
      rfl
  | sourceLinenum =>
    simp only [Flag.field] at h
    split at h
    · cases h
    · cases h
      exact countDigits_eq _
  | elapsed units =>
    cases h
    exact countDigits_eq _

end Flag

def PaddingInfo.padded (padding : PaddingInfo) (field : Field) : List Char :=
  if padding.enabled = true then
    if field.size < padding.width then
      let blanks := padding.width - field.size
      match padding.side with
      | .left => List.replicate blanks ' ' ++ field.text
      | .right => field.text ++ List.replicate blanks ' '
      | .center => List.replicate (blanks / 2) ' ' ++ field.text ++
          List.replicate (blanks - blanks / 2) ' '
    else if padding.truncate = true then field.text.take padding.width
    else field.text
  else field.text

theorem padIt_nat {count : Nat} (h : count ≤ PatternFormatter.maxWidth) (dest : List Char) :
    padIt count dest = .ok (dest ++ List.replicate count ' ') := by
  have hle : (count : Int) ≤ 64 := by
    rw [PatternFormatter.maxWidth] at h
    omega
  rw [padIt, if_pos hle, Int.toNat_natCast]

theorem padIt_zero (dest : List Char) : padIt 0 dest = .ok dest := by
  have hzero := padIt_nat (Nat.zero_le PatternFormatter.maxWidth) dest
  rw [List.replicate_zero, List.append_nil] at hzero
  exact hzero

theorem scopedPadder_blanks {padding : PaddingInfo} {field : Field} {before after : Nat}
    (hpad : scopedPad padding field.size = ((before : Int), (after : Int)))
    (hbefore : before ≤ PatternFormatter.maxWidth) (hafter : after ≤ PatternFormatter.maxWidth)
    (dest : List Char) : scopedPadder padding field dest =
      .ok (dest ++ (List.replicate before ' ' ++ field.text ++ List.replicate after ' ')) := by
  have hnonneg : (after : Int) ≥ 0 := Int.natCast_nonneg after
  simp only [scopedPadder, hpad, padIt_nat hbefore, bind, Except.bind, if_pos hnonneg,
    padIt_nat hafter, List.append_assoc]

theorem scopedPadder_fits {padding : PaddingInfo} {field : Field}
    (hpad : scopedPad padding field.size = (0, 0)) (dest : List Char) :
    scopedPadder padding field dest = .ok (dest ++ field.text) := by
  simp only [scopedPadder, hpad, padIt_zero, bind, Except.bind, ge_iff_le, le_refl, if_true]

theorem scopedPadder_cut {padding : PaddingInfo} {field : Field} {remaining : Int}
    (hpad : scopedPad padding field.size = (0, remaining)) (hneg : ¬remaining ≥ 0)
    (hlen : (field.text.length : Int) + remaining = padding.width)
    (htruncate : padding.truncate = true) (dest : List Char) :
    scopedPadder padding field dest = .ok (dest ++ field.text.take padding.width) := by
  have hsize : ((dest ++ field.text).length : Int) + remaining =
      ((dest.length + padding.width : Nat) : Int) := by
    rw [List.length_append]
    omega
  have hpos : ¬((dest.length + padding.width : Nat) : Int) < 0 := by omega
  simp only [scopedPadder, hpad, padIt_zero, bind, Except.bind, if_neg hneg, if_pos htruncate,
    hsize, if_neg hpos, Int.toNat_natCast, List.take_length_add_append]

theorem scopedPadder_long {padding : PaddingInfo} {field : Field} {remaining : Int}
    (hpad : scopedPad padding field.size = (0, remaining)) (hneg : ¬remaining ≥ 0)
    (htruncate : ¬padding.truncate = true) (dest : List Char) :
    scopedPadder padding field dest = .ok (dest ++ field.text) := by
  simp only [scopedPadder, hpad, padIt_zero, bind, Except.bind, if_neg hneg, if_neg htruncate]

/-- What a padder appends does not depend on the line so far: it has blanks enough, and takes
back no more than was appended. -/
theorem appendField_eq {padding : PaddingInfo} {field : Field}
    (hwidth : padding.width ≤ PatternFormatter.maxWidth)
    (hsize : padding.truncate = true → field.size = field.text.length) (dest : List Char) :
    appendField padding field dest = .ok (dest ++ padding.padded field) := by
  rw [appendField, PaddingInfo.padded]
  by_cases henabled : padding.enabled = true
  · rw [if_pos henabled, if_pos henabled]
    by_cases hlt : field.size < padding.width
    · rw [if_pos hlt]
      obtain ⟨blanks, hblanks⟩ : ∃ blanks : Nat, blanks = padding.width - field.size := ⟨_, rfl⟩
      have hremaining : (padding.width : Int) - field.size = blanks := by omega
      have hpos : ¬(blanks : Int) ≤ 0 := by omega
      have hmax : blanks ≤ PatternFormatter.maxWidth := by omega
      rw [← hblanks]
      cases hside : padding.side with
      | left =>
        have hpad : scopedPad padding field.size = ((blanks : Int), ((0 : Nat) : Int)) := by
          simp only [scopedPad, hremaining, if_neg hpos, hside]
          rfl
        rw [scopedPadder_blanks hpad hmax (Nat.zero_le _), List.replicate_zero, List.append_nil]
      | right =>
        have hpad : scopedPad padding field.size = (((0 : Nat) : Int), (blanks : Int)) := by
          simp only [scopedPad, hremaining, if_neg hpos, hside]
          rfl
        rw [scopedPadder_blanks hpad (Nat.zero_le _) hmax, List.replicate_zero, List.nil_append]
      | center =>
        have hpad : scopedPad padding field.size =
            (((blanks / 2 : Nat) : Int), ((blanks - blanks / 2 : Nat) : Int)) := by
          simp only [scopedPad, hremaining, if_neg hpos, hside, Prod.mk.injEq]
          omega
        rw [scopedPadder_blanks hpad (by omega) (by omega)]
    · rw [if_neg hlt]
      have hpad : scopedPad padding field.size = (0, (padding.width : Int) - field.size) := by
        have hle : (padding.width : Int) - field.size ≤ 0 := by omega
        rw [scopedPad, if_pos hle]
      by_cases htruncate : padding.truncate = true
      · have hlen := hsize htruncate
        rw [if_pos htruncate]
        by_cases hneg : (padding.width : Int) - field.size ≥ 0
        · have hzero : (padding.width : Int) - field.size = 0 := by omega
          rw [hzero] at hpad
          rw [scopedPadder_fits hpad, List.take_of_length_le (by omega)]
        · exact scopedPadder_cut hpad hneg (by omega) htruncate dest
      · rw [if_neg htruncate]
        by_cases hneg : (padding.width : Int) - field.size ≥ 0
        · have hzero : (padding.width : Int) - field.size = 0 := by omega
          rw [hzero] at hpad
          exact scopedPadder_fits hpad dest
        · exact scopedPadder_long hpad hneg htruncate dest
  · rw [if_neg henabled, if_neg henabled]

namespace PatternFormatter

def paddingOf : Formatter → PaddingInfo
  | .flag _ padding => padding
  | _ => .none

theorem handleFlag_width {padding : PaddingInfo} {f : Formatter} (flag : Char)
    (h : f ∈ handleFlag flag padding) : (paddingOf f).width ≤ padding.width := by
  unfold handleFlag at h
  split at h
  · rw [List.mem_singleton.1 h]
    exact Nat.zero_le _
  · rw [List.mem_singleton.1 h]
    exact Nat.zero_le _
  · rw [List.mem_singleton.1 h]
    exact Nat.zero_le _
  · rw [List.mem_singleton.1 h]
    exact Nat.zero_le _
  · split at h
    · rw [List.mem_singleton.1 h]
      exact Nat.le_refl _
    · split at h
      · rw [List.mem_singleton.1 h]
        exact Nat.zero_le _
      · rcases List.mem_cons.1 h with rfl | h
        · exact Nat.le_refl _
        · rw [List.mem_singleton.1 h]
          exact Nat.zero_le _

theorem Readable.width_le {padding : PaddingInfo} {flag : Char} (h : Readable padding flag) :
    padding.width ≤ maxWidth := by
  rcases h with ⟨rfl, -⟩ | ⟨-, hwidth, -⟩
  · exact Nat.zero_le _
  · exact hwidth

/-- No pattern asks a padder for more blanks than it has. -/
theorem compile_width_le (pattern : List Char) :
    ∀ f ∈ compile pattern, (paddingOf f).width ≤ maxWidth := by
  intro f hf
  rw [compile_parse] at hf
  obtain ⟨item, -, hitem⟩ := List.mem_flatMap.1 hf
  cases item with
  | text chars hne hpercent =>
    rw [List.mem_singleton.1 hitem]
    exact Nat.zero_le _
  | directive padding flag h => exact (handleFlag_width flag hitem).trans h.width_le

end PatternFormatter

end Gortsp
