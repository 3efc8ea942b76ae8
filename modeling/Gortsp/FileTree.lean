import Mathlib.Data.List.Infix

set_option autoImplicit true

namespace FileTree

inductive Move (ν : Type) where
  | stay
  | up
  | down (name : ν)
  deriving DecidableEq

/-- The root has no parent but itself. -/
def Move.from (m : Move ν) (p : List ν) : List ν :=
  match m with
  | .stay => p
  | .up => p.dropLast
  | .down name => p ++ [name]

inductive Node (β : Type) where
  | dir
  | file (content : List β)
  deriving DecidableEq

def Node.isDir : Node β → Bool
  | .dir => true
  | .file _ => false

end FileTree

open FileTree in
/-- A node is given by the names on the way to it. Whatever is in the tree is in a directory. -/
structure FileTree (ν β : Type) where
  node : List ν → Option (Node β)
  cwd : List ν
  root_dir : (node []).map Node.isDir = some true
  cwd_dir : (node cwd).map Node.isDir = some true
  parent_dir : ∀ p name, (node (p ++ [name])).isSome → (node p).map Node.isDir = some true

namespace FileTree

variable {t t' : FileTree ν β} {p q : List ν}

/-- Whether there is a directory (`true`), a file or nothing. -/
def kind (t : FileTree ν β) (p : List ν) : Option Bool := (t.node p).map Node.isDir

theorem isSome_of_kind (h : t.kind p = some d) : (t.node p).isSome := by
  rw [kind, Option.map_eq_some_iff] at h
  obtain ⟨n, hn, -⟩ := h
  exact Option.isSome_of_eq_some hn

theorem ne_of_free (h : t.kind p = some d) (hfree : t.node q = none) : p ≠ q := by
  rintro rfl
  rw [kind, hfree] at h
  cases h

theorem ne_of_file (h : t.kind p = some true) (hfile : t.kind q = some false) : p ≠ q := by
  rintro rfl
  cases h.symm.trans hfile

theorem concat_ne_nil (p : List ν) (name : ν) : p ++ [name] ≠ [] :=
  List.append_ne_nil_of_right_ne_nil p (List.cons_ne_nil name [])

section Walk

/-- The node that the moves lead to if all the directories on the way are there. -/
def place (p : List ν) (ms : List (Move ν)) : List ν := ms.foldl (fun p m => m.from p) p

def walk (t : FileTree ν β) : List ν → List (Move ν) → Option (List ν)
  | p, [] => some p
  | p, m :: ms =>
    if t.kind p = some true ∧ (t.kind (m.from p)).isSome then t.walk (m.from p) ms else none

theorem walk_cons (hdir : t.kind p = some true) (h : (t.kind (m.from p)).isSome)
    (ms : List (Move ν)) : t.walk p (m :: ms) = t.walk (m.from p) ms := if_pos ⟨hdir, h⟩

theorem walk_cons_cases (h : t.walk p (m :: ms) = some q) :
    t.kind p = some true ∧ (t.kind (m.from p)).isSome ∧ t.walk (m.from p) ms = some q := by
  rw [walk] at h
  split at h
  · next hm => exact ⟨hm.1, hm.2, h⟩
  · cases h

theorem walk_append (t : FileTree ν β) (p : List ν) (ms ms' : List (Move ν)) :
    t.walk p (ms ++ ms') = (t.walk p ms).bind (t.walk · ms') := by
  induction ms generalizing p with
  | nil => rfl
  | cons m ms ih =>
    rw [List.cons_append, walk, walk]
    split
    · exact ih _
    · rfl

theorem walk_place (h : t.walk p ms = some q) : q = place p ms := by
  induction ms generalizing p with
  | nil =>
    cases h
    rfl
  | cons m ms ih => exact ih (walk_cons_cases h).2.2

theorem walk_concat (h : t.walk p ms = some q) (hdir : t.kind q = some true)
    (hm : (t.kind (m.from q)).isSome) : t.walk p (ms ++ [m]) = some (m.from q) := by
  rw [walk_append, h, Option.bind_some, walk_cons hdir hm]
  rfl

theorem place_concat (p : List ν) (ms : List (Move ν)) (m : Move ν) :
    place p (ms ++ [m]) = m.from (place p ms) := List.foldl_concat _ p m ms

end Walk

/-- What was there is still there; files may have got other contents. -/
structure Keeps (t t' : FileTree ν β) : Prop where
  cwd_eq : t'.cwd = t.cwd
  kind_eq : ∀ p d, t.kind p = some d → t'.kind p = some d

theorem Keeps.walk (h : t.Keeps t') (hw : t.walk p ms = some q) : t'.walk p ms = some q := by
  induction ms generalizing p with
  | nil => exact hw
  | cons m ms ih =>
    obtain ⟨hdir, hm, hrest⟩ := walk_cons_cases hw
    obtain ⟨d, hd⟩ := Option.isSome_iff_exists.1 hm
    rw [walk_cons (h.kind_eq p true hdir) (Option.isSome_of_eq_some (h.kind_eq _ d hd))]
    exact ih hrest

variable [DecidableEq ν]

def add (t : FileTree ν β) (p : List ν) (name : ν) (n : Node β) (hdir : t.kind p = some true)
    (hfree : t.node (p ++ [name]) = none) : FileTree ν β where
  node q := if q = p ++ [name] then some n else t.node q
  cwd := t.cwd
  root_dir := by
    rw [if_neg (concat_ne_nil p name).symm]
    exact t.root_dir
  cwd_dir := by
    rw [if_neg (ne_of_free t.cwd_dir hfree)]
    exact t.cwd_dir
  parent_dir := by
    intro q c hq
    by_cases he : q ++ [c] = p ++ [name]
    · rw [(List.append_inj' he rfl).1, if_neg (ne_of_free hdir hfree)]
      exact hdir
    · rw [if_neg he] at hq
      have hparent := t.parent_dir q c
      by_cases hnew : q = p ++ [name]
      · rw [hnew, hfree] at hparent
        cases hparent (hnew ▸ hq)
      · rw [if_neg hnew]
        exact hparent hq

theorem node_add_self (hdir : t.kind p = some true) (hfree : t.node (p ++ [name]) = none) :
    (t.add p name n hdir hfree).node (p ++ [name]) = some n := if_pos rfl

theorem node_add_of_ne (hdir : t.kind p = some true) (hfree : t.node (p ++ [name]) = none)
    (h : q ≠ p ++ [name]) : (t.add p name n hdir hfree).node q = t.node q := if_neg h

def truncate (t : FileTree ν β) (p : List ν) (hfile : t.kind p = some false) : FileTree ν β where
  node q := if q = p then some (.file []) else t.node q
  cwd := t.cwd
  root_dir := by
    rw [if_neg (ne_of_file t.root_dir hfile)]
    exact t.root_dir
  cwd_dir := by
    rw [if_neg (ne_of_file t.cwd_dir hfile)]
    exact t.cwd_dir
  parent_dir := by
    intro q c hq
    have hdir : t.kind q = some true := by
      apply t.parent_dir q c
      split at hq
      · next he => exact he ▸ isSome_of_kind hfile
      · exact hq
    rw [if_neg (ne_of_file hdir hfile)]
    exact hdir

theorem node_truncate_self (hfile : t.kind p = some false) :
    (t.truncate p hfile).node p = some (.file []) := if_pos rfl

theorem node_truncate_of_ne (hfile : t.kind p = some false) (h : q ≠ p) :
    (t.truncate p hfile).node q = t.node q := if_neg h

end FileTree
