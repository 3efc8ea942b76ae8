import Gortsp.LogFileTouches

namespace Gortsp
set_option autoImplicit true

namespace FileHelper
open FileTree (Move Node)

variable {t t' : Tree} {w w' : Files} {path fname x y : List UInt8}

section Openable

variable {truncate anew : Bool}

def Reaches (t : Tree) (fname : List UInt8) (ns : List Name) : Prop :=
  ∃ p, t.walk (origin t fname) (ns.map moveOf) = some p ∧ t.kind p = some true

theorem Reaches.stay (h : Reaches t fname ns) : Reaches t fname (ns ++ [[]]) := by
  obtain ⟨p, hp, hdir⟩ := h
  refine ⟨p, ?_, hdir⟩
  rw [List.map_append]
  exact FileTree.walk_concat hp hdir (Option.isSome_of_eq_some hdir)

/-- The turn of the loop at `searchOffset` adds its token to names that lead to a directory. -/
def Ready (t : Tree) (fname path : List UInt8) (searchOffset : Nat) : Prop :=
  ∃ ns, Reaches t fname ns ∧ ∀ token, separator ∉ token →
    names (path.take searchOffset ++ token) = ns ++ [token]

end Openable

/-- Opening a file makes the directories that are missing on the way and the file, and changes
nothing else that is there, whether it succeeds or not. -/
theorem openFile_touches {fname : StdString} (h0 : 0 ∉ fname.bytes)
    (h : openFile w fname truncate = (r, w')) :
    Touches fname.bytes truncate w.tree w'.tree := by
  obtain ⟨r₁, w₁, hloop⟩ : ∃ r₁ w₁, openLoop fname.bytes truncate openTries w = (r₁, w₁) :=
    ⟨_, _, rfl⟩
  rw [openFile, hloop] at h
  cases r₁ with
  | none =>
    cases h
    exact (openLoop_went h0 hloop).touches
  | some fd =>
    cases h
    exact (openLoop_went h0 hloop).touches

def logsPath : StdString := ⟨"logs/server.log".toUTF8.data.toList, by decide⟩

def emptyTree : Tree where
  node p := if p = [] then some .dir else none
  cwd := []
  root_dir := rfl
  cwd_dir := rfl
  parent_dir := by
    intro p name h
    rw [if_neg (FileTree.concat_ne_nil p name)] at h
    cases h

theorem openFile_touches_empty : ∃ r w',
    openFile ⟨emptyTree, [], 0⟩ logsPath false = (r, w') ∧
      Touches logsPath.bytes false emptyTree w'.tree := by
  have h0 : 0 ∉ logsPath.bytes := by decide
  obtain ⟨r, w', h⟩ : ∃ r w', openFile ⟨emptyTree, [], 0⟩ logsPath false = (r, w') :=
    ⟨_, _, rfl⟩
  exact ⟨r, w', h, openFile_touches h0 h⟩

section InitLogger

variable {p p' : LogProcess} {logLevel : LevelEnum} {path : StdString}
  {isConsoleLog isSimpleLog : Bool} {r : Except SpdlogEx Unit}

end InitLogger

end FileHelper

end Gortsp
