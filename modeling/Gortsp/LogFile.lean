import Gortsp.FileTree
import Gortsp.Logger
import Mathlib.Data.List.DropRight

namespace Gortsp
set_option autoImplicit true

namespace FileHelper
open FileTree (Move Node)

abbrev Name := List UInt8

abbrev Tree := FileTree Name UInt8

def separator : UInt8 := 0x2f

def moveOf (name : Name) : Move Name :=
  if name = [] ∨ name = [0x2e] then .stay else if name = [0x2e, 0x2e] then .up else .down name

def names (path : List UInt8) : List Name := path.splitOn separator

def moves (path : List UInt8) : List (Move Name) := (names path).map moveOf

def origin (t : Tree) (path : List UInt8) : List Name :=
  if path.head? = some separator then [] else t.cwd

def target (t : Tree) (path : List UInt8) : List Name :=
  FileTree.place (origin t path) (moves path)

/-- The tree, which no other process changes, which of the coming calls the kernel refuses (none
when the list is at its end), and how many it has refused. -/
structure Files where
  tree : Tree
  refusals : List Bool
  refused : Nat

def cStr (s : List UInt8) : List UInt8 := s.takeWhile (· ≠ 0)

def Files.ask (w : Files) : Bool × Files :=
  match w.refusals with
  | [] => (false, w)
  | refuses :: refusals =>
    (refuses, { w with refusals, refused := if refuses then w.refused + 1 else w.refused })

/-- What `stat` finds; nothing under an empty path. -/
def Tree.Has (t : Tree) (path : List UInt8) : Prop :=
  path ≠ [] ∧ (t.walk (origin t path) (moves path)).isSome

instance (t : Tree) (path : List UInt8) : Decidable (t.Has path) :=
  inferInstanceAs (Decidable (_ ∧ _))

/-- A `stat` that is refused finds nothing either. -/
def pathExists (w : Files) (filename : List UInt8) : Bool × Files :=
  let (refuses, w) := w.ask
  (!refuses && decide (Tree.Has w.tree (cStr filename)), w)

def Files.call (w : Files) (f : Tree → Option (α × Tree)) : Option α × Files :=
  let (refuses, w) := w.ask
  match if refuses then none else f w.tree with
  | some (r, tree) => (some r, { w with tree })
  | none => (none, w)

/-- The directory that the path leads to at last, and the name in it. Only names can be made. -/
def parentOf (t : Tree) (path : List UInt8) (ns : List Name) : Option (List Name × Name) :=
  match ns.getLast?.map moveOf with
  | some (.down name) => (t.walk (origin t path) (ns.dropLast.map moveOf)).map (·, name)
  | _ => none

/-- `mkdir` takes a path with separators at its end for one without. -/
def Tree.makeDir (t : Tree) (path : List UInt8) : Option Tree :=
  match parentOf t path ((names path).rdropWhile (· = [])) with
  | some (p, name) =>
    if h : t.kind p = some true ∧ t.node (p ++ [name]) = none then
      some (t.add p name .dir h.1 h.2)
    else none
  | none => none

def mkdir (w : Files) (path : List UInt8) : Bool × Files :=
  let (made, w) := w.call fun t => (Tree.makeDir t (cStr path)).map ((), ·)
  (made.isSome, w)

def tokenPos (path : List UInt8) (searchOffset : Nat) : Nat :=
  searchOffset + ((path.drop searchOffset).takeWhile (· ≠ separator)).length

def subdirMade (w : Files) (subdir : List UInt8) : Bool × Files :=
  if subdir = [] then (true, w)
  else
    match pathExists w subdir with
    | (true, w) => (true, w)
    | (false, w) => mkdir w subdir

def createDirLoop (w : Files) (path : List UInt8) (searchOffset : Nat) : Bool × Files :=
  match subdirMade w (path.take (tokenPos path searchOffset)) with
  | (false, w) => (false, w)
  | (true, w) =>
    if tokenPos path searchOffset + 1 < path.length then
      createDirLoop w path (tokenPos path searchOffset + 1)
    else (true, w)
termination_by path.length - searchOffset
decreasing_by
  have hle : searchOffset ≤ tokenPos path searchOffset := Nat.le_add_right _ _
  omega

def createDir (w : Files) (path : List UInt8) : Bool × Files :=
  match pathExists w path with
  | (true, w) => (true, w)
  | (false, w) => if path = [] then (false, w) else createDirLoop w path 0

def dirName (path : List UInt8) : List UInt8 := (path.rdropWhile (· ≠ separator)).dropLast

def Tree.openNode (t : Tree) (path : List UInt8) (anew : Bool) : Option (List Name × Tree) :=
  match parentOf t path (names path) with
  | some (p, name) =>
    if hfile : t.kind (p ++ [name]) = some false then
      some (p ++ [name], if anew then t.truncate (p ++ [name]) hfile else t)
    else if h : t.kind p = some true ∧ t.node (p ++ [name]) = none then
      some (p ++ [name], t.add p name (.file []) h.1 h.2)
    else none
  | none => none

def fopenS (w : Files) (filename : List UInt8) (anew : Bool) : Option (List Name) × Files :=
  w.call (Tree.openNode · (cStr filename) anew)

def fopenTruncating (w : Files) (fname : List UInt8) (truncate : Bool) :
    Option (List Name) × Files :=
  if truncate then
    match fopenS w fname true with
    | (none, w) => (none, w)
    | (some _, w) => fopenS w fname false
  else fopenS w fname false

/-- One turn of the loop in `file_helper::open`, which drops the result of `create_dir`. -/
def tryOpen (w : Files) (fname : List UInt8) (truncate : Bool) : Option (List Name) × Files :=
  fopenTruncating (createDir w (dirName fname)).2 fname truncate

def openTries : Nat := 5

def openLoop (fname : List UInt8) (truncate : Bool) : Nat → Files → Option (List Name) × Files
  | 0, w => (none, w)
  | tries + 1, w =>
    match tryOpen w fname truncate with
    | (some fd, w) => (some fd, w)
    | (none, w) => openLoop fname truncate tries w

/-- `file_helper::open` of a helper that has no file yet. -/
def openFile (w : Files) (fname : StdString) (truncate : Bool) :
    Except SpdlogEx (List Name) × Files :=
  match openLoop fname.bytes truncate openTries w with
  | (some fd, w) => (.ok fd, w)
  | (none, w) => (.error (.openFailed fname), w)

end FileHelper

end Gortsp
