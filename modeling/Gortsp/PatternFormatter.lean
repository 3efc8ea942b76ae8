import Gortsp.Logger

namespace Gortsp
set_option autoImplicit true

inductive PadSide where
  | left
  | right
  | center
  deriving DecidableEq

structure PaddingInfo where
  width : Nat
  side : PadSide
  truncate : Bool
  enabled : Bool
  deriving DecidableEq

def PaddingInfo.none : PaddingInfo := ⟨0, .left, false, false⟩

inductive Units where
  | nanoseconds
  | microseconds
  | milliseconds
  | seconds
  deriving DecidableEq

/-- The formatters that take a padding, by the names of their classes. -/
inductive Flag where
  | name | level | shortLevel | t | v | a | A | b | B | c | C | Y | D | m | d | H | I | M | S
  | e | f | F | E | p | r | R | T | z | pid
  | sourceLocation | shortFilename | sourceFilename | sourceLinenum | sourceFuncname
  | elapsed (units : Units)
  deriving DecidableEq

inductive Formatter where
  | full
  | flag (kind : Flag) (padding : PaddingInfo)
  | colorStart
  | colorStop
  | ch (c : Char)
  | aggregate (str : List Char)
  deriving DecidableEq

namespace PatternFormatter

def maxWidth : Nat := 64

def sizeMod : Nat := 2 ^ 64

def readWidth (width : Nat) : List Char → Nat × List Char
  | [] => (width, [])
  | c :: it =>
    if c.isDigit then readWidth ((width * 10 + (c.toNat - '0'.toNat)) % sizeMod) it
    else (width, c :: it)

def padSide : List Char → PadSide × List Char
  | '-' :: it => (.right, it)
  | '=' :: it => (.center, it)
  | it => (.left, it)

def readTruncate : List Char → Bool × List Char
  | '!' :: it => (true, it)
  | it => (false, it)

/-- The padding, if one is given, and what follows it. A side without a width is skipped. -/
def handlePadspec (it : List Char) : PaddingInfo × List Char :=
  let (side, it) := padSide it
  match it with
  | [] => (.none, [])
  | c :: it =>
    if c.isDigit then
      let (width, it) := readWidth (c.toNat - '0'.toNat) it
      let (truncate, it) := readTruncate it
      (⟨min width maxWidth, side, truncate, true⟩, it)
    else (.none, c :: it)

def flagOf : Char → Option Flag
  | 'n' => some .name
  | 'l' => some .level
  | 'L' => some .shortLevel
  | 't' => some .t
  | 'v' => some .v
  | 'a' => some .a
  | 'A' => some .A
  | 'b' | 'h' => some .b
  | 'B' => some .B
  | 'c' => some .c
  | 'C' => some .C
  | 'Y' => some .Y
  | 'D' | 'x' => some .D
  | 'm' => some .m
  | 'd' => some .d
  | 'H' => some .H
  | 'I' => some .I
  | 'M' => some .M
  | 'S' => some .S
  | 'e' => some .e
  | 'f' => some .f
  | 'F' => some .F
  | 'E' => some .E
  | 'p' => some .p
  | 'r' => some .r
  | 'R' => some .R
  | 'T' | 'X' => some .T
  | 'z' => some .z
  | 'P' => some .pid
  | '@' => some .sourceLocation
  | 's' => some .shortFilename
  | 'g' => some .sourceFilename
  | '#' => some .sourceLinenum
  | '!' => some .sourceFuncname
  | 'u' => some (.elapsed .nanoseconds)
  | 'i' => some (.elapsed .microseconds)
  | 'o' => some (.elapsed .milliseconds)
  | 'O' => some (.elapsed .seconds)
  | _ => none

/-- An unknown flag appears as it is, unless a `!` came before it: that was the flag of the
function name then. There are no custom flags. -/
def handleFlag (flag : Char) (padding : PaddingInfo) : List Formatter :=
  match flag with
  | '+' => [.full]
  | '^' => [.colorStart]
  | '$' => [.colorStop]
  | '%' => [.ch '%']
  | _ =>
    match flagOf flag with
    | some kind => [.flag kind padding]
    | none =>
      if padding.truncate = false then [.aggregate ['%', flag]]
      else [.flag .sourceFuncname { padding with truncate := false }, .aggregate [flag]]

theorem readWidth_length_le (width : Nat) (it : List Char) :
    (readWidth width it).2.length ≤ it.length := by
  induction it generalizing width with
  | nil => exact Nat.le_refl 0
  | cons c it ih =>
    rw [readWidth]
    split
    · exact Nat.le_succ_of_le (ih _)
    · exact Nat.le_refl _

theorem padSide_length_le (it : List Char) : (padSide it).2.length ≤ it.length := by
  unfold padSide
  split
  · exact Nat.le_succ _
  · exact Nat.le_succ _
  · exact Nat.le_refl _

theorem readTruncate_length_le (it : List Char) : (readTruncate it).2.length ≤ it.length := by
  unfold readTruncate
  split
  · exact Nat.le_succ _
  · exact Nat.le_refl _

theorem handlePadspec_length_le (it : List Char) :
    (handlePadspec it).2.length ≤ it.length := by
  have hside := padSide_length_le it
  simp only [handlePadspec]
  cases hit : (padSide it).2 with
  | nil => exact Nat.zero_le _
  | cons c rest =>
    rw [hit] at hside
    simp only
    split
    · have hwidth := readWidth_length_le (c.toNat - '0'.toNat) rest
      have htrunc := readTruncate_length_le (readWidth (c.toNat - '0'.toNat) rest).2
      rw [List.length_cons] at hside
      simp only
      omega
    · exact hside

def userChars : Option (List Char) → List Formatter
  | some str => [.aggregate str]
  | none => []

def compileLoop (formatters : List Formatter) (chars : Option (List Char)) :
    List Char → List Formatter
  | [] => formatters ++ userChars chars
  | c :: it =>
    if c = '%' then
      let formatters := formatters ++ userChars chars
      match _h : handlePadspec it with
      | (_, []) => formatters
      | (padding, flag :: rest) =>
        compileLoop (formatters ++ handleFlag flag padding) none rest
    else compileLoop formatters (some (chars.getD [] ++ [c])) it
termination_by it => it.length
decreasing_by
  · have hlen := handlePadspec_length_le it
    rw [_h, List.length_cons] at hlen
    rw [List.length_cons]
    omega
  · exact Nat.lt_succ_self _

def compile (pattern : List Char) : List Formatter := compileLoop [] none pattern

end PatternFormatter

end Gortsp
