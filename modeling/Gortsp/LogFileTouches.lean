import Gortsp.LogFile

namespace Gortsp
set_option autoImplicit true

namespace FileHelper
open FileTree (Move Node)

variable {t t' : Tree} {w w' : Files} {path fname x y : List UInt8}

section Paths

theorem origin_append (t : Tree) (h : x ≠ []) (y : List UInt8) :
    origin t (x ++ y) = origin t x := by
  rw [origin, origin, List.head?_append_of_ne_nil x h]

theorem cStr_of_noNul (h : 0 ∉ path) : cStr path = path := by
  apply List.takeWhile_eq_self_iff.2
  intro b hb
  exact decide_eq_true fun he => h (he ▸ hb)

theorem take_tokenPos (path : List UInt8) (searchOffset : Nat) :
    path.take (tokenPos path searchOffset) =
      path.take searchOffset ++ (path.drop searchOffset).takeWhile (· ≠ separator) := by
  have htake : path.take (tokenPos path searchOffset) =
      path.take searchOffset ++ (path.drop searchOffset).take
        ((path.drop searchOffset).takeWhile (· ≠ separator)).length := by
    rw [tokenPos, List.take_add]
  rw [htake, ← List.prefix_iff_eq_take.1 (List.takeWhile_prefix _)]

theorem token_cases (path : List UInt8) (searchOffset : Nat) :
    path.take (tokenPos path searchOffset) = path ∧
        path.length ≤ tokenPos path searchOffset ∨
      ∃ rest, path = path.take (tokenPos path searchOffset) ++ separator :: rest ∧
        path.take (tokenPos path searchOffset + 1) =
          path.take (tokenPos path searchOffset) ++ [separator] ∧
        path.length = tokenPos path searchOffset + 1 + rest.length := by
  have hpath : path = path.take (tokenPos path searchOffset) ++
      (path.drop searchOffset).dropWhile (· ≠ separator) := by
    rw [take_tokenPos, List.append_assoc, List.takeWhile_append_dropWhile, List.take_append_drop]
  have hlength := congrArg List.length hpath
  rw [List.length_append, List.length_take] at hlength
  cases hrest : (path.drop searchOffset).dropWhile (· ≠ separator) with
  | nil =>
    rw [hrest, List.append_nil] at hpath
    rw [hrest, List.length_nil] at hlength
    exact .inl ⟨hpath.symm, by omega⟩
  | cons c rest =>
    have hhead := List.head?_dropWhile_not (fun b => decide (b ≠ separator))
      (path.drop searchOffset)
    rw [hrest] at hhead
    obtain rfl := not_not.1 (of_decide_eq_false hhead)
    rw [hrest] at hpath
    rw [hrest, List.length_cons] at hlength
    have hcut : (path.take (tokenPos path searchOffset)).length = tokenPos path searchOffset := by
      rw [List.length_take]
      omega
    refine .inr ⟨rest, hpath, ?_, by omega⟩
    have htake : ((path.take (tokenPos path searchOffset)) ++ separator :: rest).take
        ((path.take (tokenPos path searchOffset)).length + 1) =
          path.take (tokenPos path searchOffset) ++ [separator] :=
      List.take_length_add_append 1
    rw [← hpath, hcut] at htake
    exact htake

theorem dirName_cases (path : List UInt8) :
    (∃ last, path = dirName path ++ separator :: last ∧ separator ∉ last) ∨
      separator ∉ path ∧ dirName path = [] := by
  have hpath := List.rdropWhile_append_rtakeWhile (p := (· ≠ separator)) (l := path)
  have hlast : separator ∉ path.rtakeWhile (· ≠ separator) := by
    intro h
    have hne := List.mem_rtakeWhile_imp h
    exact absurd rfl (of_decide_eq_true hne)
  by_cases hpre : path.rdropWhile (· ≠ separator) = []
  · right
    rw [hpre, List.nil_append] at hpath
    rw [dirName, hpre]
    exact ⟨hpath ▸ hlast, rfl⟩
  · left
    refine ⟨path.rtakeWhile (· ≠ separator), ?_, hlast⟩
    have hsep := List.rdropWhile_last_not (· ≠ separator) path hpre
    have hconcat := List.dropLast_append_getLast hpre
    rw [decide_eq_true_eq, not_not] at hsep
    rw [hsep] at hconcat
    rw [dirName, ← List.singleton_append, ← List.append_assoc, hconcat, hpath]

end Paths

/-- A directory on the way to the file: what comes before a separator of its path. -/
def OnTheWay (t : Tree) (fname : List UInt8) (p : List Name) : Prop :=
  ∃ x y, fname = x ++ separator :: y ∧ p = FileTree.place (origin t fname) (moves x)

/-- All that opening a file does to the tree: directories on the way are new, and the file is new
or, if it is to be truncated, emptied. -/
structure Touches (fname : List UInt8) (truncate : Bool) (t t' : Tree) : Prop where
  cwd_eq : t'.cwd = t.cwd
  node_cases : ∀ p, t'.node p = t.node p ∨
    t.node p = none ∧ t'.node p = some .dir ∧ OnTheWay t fname p ∨
    p = target t fname ∧ t'.node p = some (.file []) ∧
      (t.node p = none ∨ truncate = true ∧ t.kind p = some false)

section Touches

variable {truncate : Bool}

theorem origin_congr (h : t'.cwd = t.cwd) (path : List UInt8) : origin t' path = origin t path := by
  rw [origin, origin, h]

theorem target_congr (h : t'.cwd = t.cwd) (path : List UInt8) : target t' path = target t path := by
  rw [target, target, origin_congr h]

theorem OnTheWay.congr (h : t'.cwd = t.cwd) (hp : OnTheWay t' fname p) : OnTheWay t fname p := by
  obtain ⟨x, y, hsplit, hplace⟩ := hp
  exact ⟨x, y, hsplit, origin_congr h fname ▸ hplace⟩

theorem Touches.refl (fname : List UInt8) (truncate : Bool) (t : Tree) :
    Touches fname truncate t t := ⟨rfl, fun _ => .inl rfl⟩

theorem kind_of_node {n : Node UInt8} (h : t.node p = some n) : t.kind p = some n.isDir := by
  rw [FileTree.kind, h]
  rfl

theorem Touches.trans (h : Touches fname truncate t t') (h' : Touches fname truncate t' t'') :
    Touches fname truncate t t'' := by
  refine ⟨h'.cwd_eq.trans h.cwd_eq, fun p => ?_⟩
  rcases h'.node_cases p with hsame' | ⟨hnone, hdir', hway⟩ | ⟨htarget, hfile', hold⟩
  · rw [hsame']
    exact h.node_cases p
  · rcases h.node_cases p with hsame | ⟨-, hdir, -⟩ | ⟨-, hfile, -⟩
    · exact .inr (.inl ⟨hsame ▸ hnone, hdir', hway.congr h.cwd_eq⟩)
    · cases hnone.symm.trans hdir
    · cases hnone.symm.trans hfile
  · rw [target_congr h.cwd_eq] at htarget
    refine .inr (.inr ⟨htarget, hfile', ?_⟩)
    rcases h.node_cases p with hsame | ⟨-, hdir, -⟩ | ⟨-, -, hold⟩
    · rw [FileTree.kind, hsame] at hold
      exact hold
    · rw [kind_of_node hdir, hdir] at hold
      rcases hold with hold | ⟨-, hold⟩
      · cases hold
      · cases hold
    · exact hold

end Touches

section Calls

theorem parentOf_concat (hname : moveOf last = .down name) (ns : List Name) :
    parentOf t path (ns ++ [last]) =
      (t.walk (origin t path) (ns.map moveOf)).map (·, name) := by
  rw [parentOf, List.getLast?_concat, Option.map_some, hname, List.dropLast_concat]

theorem parentOf_cases {ns : List Name} (h : parentOf t path ns = some (p, name)) :
    ∃ ns' last, ns = ns' ++ [last] ∧ moveOf last = .down name ∧
      t.walk (origin t path) (ns'.map moveOf) = some p := by
  rcases List.eq_nil_or_concat' ns with rfl | ⟨ns', last, rfl⟩
  · cases h
  · cases hm : moveOf last with
    | stay =>
      rw [parentOf, List.getLast?_concat, Option.map_some, hm] at h
      cases h
    | up =>
      rw [parentOf, List.getLast?_concat, Option.map_some, hm] at h
      cases h
    | down name' =>
      rw [parentOf_concat hm] at h
      obtain ⟨q, hq, he⟩ := Option.map_eq_some_iff.1 h
      cases he
      exact ⟨ns', last, rfl, hm, hq⟩

theorem place_rdropWhile (o : List Name) (ns : List Name) :
    FileTree.place o ((ns.rdropWhile (· = [])).map moveOf) =
      FileTree.place o (ns.map moveOf) := by
  induction ns using List.reverseRecOn with
  | nil => rfl
  | append_singleton ns name ih =>
    by_cases hname : name = []
    · rw [List.rdropWhile_concat_pos (fun x => decide (x = [])) ns name (decide_eq_true hname),
        ih, List.map_append, List.map_singleton, FileTree.place_concat, hname]
      rfl
    · rw [List.rdropWhile_concat_neg (fun x => decide (x = [])) ns name
        (by rwa [decide_eq_true_eq])]

theorem makeDir_cases (h : Tree.makeDir t path = some t') :
    path ≠ [] ∧ ∃ p name, ∃ (hdir : t.kind p = some true) (hfree : t.node (p ++ [name]) = none),
      t' = t.add p name .dir hdir hfree ∧ p ++ [name] = target t path := by
  rw [Tree.makeDir] at h
  split at h
  · next p name hparent =>
    split at h
    · next hfree =>
      cases h
      obtain ⟨ns, last, hns, hlast, hwalk⟩ := parentOf_cases hparent
      refine ⟨?_, p, name, hfree.1, hfree.2, rfl, ?_⟩
      · rintro rfl
        have hnone : parentOf t [] ((names []).rdropWhile (· = [])) = none := rfl
        cases hnone.symm.trans hparent
      · have hplace := FileTree.walk_place hwalk
        rw [target, moves, ← place_rdropWhile, hns, List.map_append, List.map_singleton,
          FileTree.place_concat, ← hplace, hlast]
        rfl
    · cases h
  · cases h

theorem ask_tree (w : Files) : w.ask.2.tree = w.tree := by
  rw [Files.ask]
  split
  · rfl
  · rfl

theorem ask_refused (w : Files) :
    w.ask.2.refused = if w.ask.1 then w.refused + 1 else w.refused := by
  rw [Files.ask]
  split
  · rfl
  · rfl

theorem pathExists_cases {b : Bool} (h : pathExists w path = (b, w')) :
    w'.tree = w.tree ∧ (b = false ∧ w.refused < w'.refused ∨
      (b = true ↔ Tree.Has w.tree (cStr path)) ∧ w'.refused = w.refused) := by
  have htree := ask_tree w
  have hrefused := ask_refused w
  rw [pathExists] at h
  rcases hask : w.ask with ⟨refuses, w₁⟩
  rw [hask] at h htree hrefused
  cases h
  refine ⟨htree, ?_⟩
  cases refuses with
  | true => exact .inl ⟨rfl, hrefused ▸ Nat.lt_succ_self _⟩
  | false =>
    refine .inr ⟨?_, hrefused⟩
    rw [← htree]
    exact decide_eq_true_iff

/-- A call changes the tree only if it succeeds, and fails only for a reason. -/
theorem call_cases {f : Tree → Option (α × Tree)} {r : Option α} (h : w.call f = (r, w')) :
    r = none ∧ w'.tree = w.tree ∧
        (w.refused < w'.refused ∨ w'.refused = w.refused ∧ f w.tree = none) ∨
      ∃ v, r = some v ∧ w'.refused = w.refused ∧ f w.tree = some (v, w'.tree) := by
  have htree := ask_tree w
  have hrefused := ask_refused w
  rw [Files.call] at h
  rcases hask : w.ask with ⟨refuses, w₁⟩
  rw [hask] at h htree hrefused
  cases refuses with
  | true =>
    cases h
    exact .inl ⟨rfl, htree, .inl (hrefused ▸ Nat.lt_succ_self _)⟩
  | false =>
    cases hf : f w₁.tree with
    | none =>
      simp only [Bool.false_eq_true, if_false, hf] at h
      cases h
      exact .inl ⟨rfl, htree, .inr ⟨hrefused, htree ▸ hf⟩⟩
    | some v =>
      simp only [Bool.false_eq_true, if_false, hf] at h
      cases h
      exact .inr ⟨_, rfl, hrefused, htree ▸ hf⟩

theorem openNode_cases {anew : Bool} (h : Tree.openNode t path anew = some (fp, t')) :
    ∃ ns last name p, names path = ns ++ [last] ∧ moveOf last = .down name ∧
      t.walk (origin t path) (ns.map moveOf) = some p ∧ fp = p ++ [name] ∧
      ((∃ hfile, t' = if anew then t.truncate fp hfile else t) ∨
        ∃ (hdir : t.kind p = some true) (hfree : t.node (p ++ [name]) = none),
          t' = t.add p name (.file []) hdir hfree) := by
  rw [Tree.openNode] at h
  split at h
  · next p name hparent =>
    obtain ⟨ns, last, hns, hlast, hwalk⟩ := parentOf_cases hparent
    split at h
    · next hfile =>
      cases h
      exact ⟨ns, last, name, p, hns, hlast, hwalk, rfl, .inl ⟨hfile, rfl⟩⟩
    · split at h
      · next hfree =>
        cases h
        exact ⟨ns, last, name, p, hns, hlast, hwalk, rfl, .inr ⟨hfree.1, hfree.2, rfl⟩⟩
      · cases h
  · cases h

theorem target_of_walk {ns : List Name} (hns : names path = ns ++ [last])
    (hlast : moveOf last = .down name) (hwalk : t.walk (origin t path) (ns.map moveOf) = some p) :
    target t path = p ++ [name] := by
  rw [target, moves, hns, List.map_append, List.map_singleton, FileTree.place_concat,
    ← FileTree.walk_place hwalk, hlast]
  rfl

end Calls

structure Files.Went (fname : List UInt8) (truncate : Bool) (w w' : Files) : Prop where
  touches : Touches fname truncate w.tree w'.tree
  refused_le : w.refused ≤ w'.refused

section Went

variable {truncate : Bool}

theorem Files.Went.refl (fname : List UInt8) (truncate : Bool) (w : Files) :
    w.Went fname truncate w := ⟨.refl fname truncate w.tree, Nat.le_refl _⟩

theorem Files.Went.trans (h : w.Went fname truncate w') (h' : w'.Went fname truncate w'') :
    w.Went fname truncate w'' :=
  ⟨h.touches.trans h'.touches, h.refused_le.trans h'.refused_le⟩

theorem noNul_of_append (h0 : 0 ∉ fname) (h : fname = x ++ y) : 0 ∉ x :=
  fun hx => h0 (h ▸ List.mem_append_left y hx)

theorem makeDir_touches (h : Tree.makeDir t x = some t') (hx : fname = x ++ separator :: y) :
    Touches fname truncate t t' := by
  obtain ⟨hne, p, name, hdir, hfree, rfl, htarget⟩ := makeDir_cases h
  refine ⟨rfl, fun q => ?_⟩
  by_cases hq : q = p ++ [name]
  · right
    left
    refine ⟨hq ▸ hfree, hq ▸ FileTree.node_add_self hdir hfree, x, y, hx, ?_⟩
    rw [hq, htarget, target, hx, origin_append t hne]
  · exact .inl (FileTree.node_add_of_ne hdir hfree hq)

theorem call_went {f : Tree → Option (α × Tree)} {r : Option α} (h : w.call f = (r, w'))
    (hf : ∀ v t', f w.tree = some (v, t') → Touches fname truncate w.tree t') :
    w.Went fname truncate w' := by
  rcases call_cases h with ⟨-, htree, hwhy⟩ | ⟨v, -, hrefused, hv⟩
  · refine ⟨htree ▸ .refl fname truncate w.tree, ?_⟩
    rcases hwhy with hlt | ⟨heq, -⟩
    · exact Nat.le_of_lt hlt
    · exact Nat.le_of_eq heq.symm
  · exact ⟨hf v w'.tree hv, Nat.le_of_eq hrefused.symm⟩

theorem mkdir_went {b : Bool} (h0 : 0 ∉ fname) (hx : fname = x ++ separator :: y)
    (h : mkdir w x = (b, w')) : w.Went fname truncate w' := by
  obtain ⟨r, w₁, hcall⟩ : ∃ r w₁,
      w.call (fun t => (Tree.makeDir t (cStr x)).map ((), ·)) = (r, w₁) := ⟨_, _, rfl⟩
  rw [mkdir, hcall] at h
  cases h
  apply call_went hcall
  intro v t' hmade
  obtain ⟨tree, hmade, he⟩ := Option.map_eq_some_iff.1 hmade
  cases he
  rw [cStr_of_noNul (noNul_of_append h0 hx)] at hmade
  exact makeDir_touches hmade hx

theorem pathExists_went {b : Bool} (h : pathExists w path = (b, w')) :
    w.Went fname truncate w' := by
  obtain ⟨htree, hrefused⟩ := pathExists_cases h
  refine ⟨htree ▸ .refl fname truncate w.tree, ?_⟩
  rcases hrefused with ⟨-, hlt⟩ | ⟨-, heq⟩
  · exact Nat.le_of_lt hlt
  · exact Nat.le_of_eq heq.symm

theorem subdirMade_went {b : Bool} (h0 : 0 ∉ fname) (hx : fname = x ++ separator :: y)
    (h : subdirMade w x = (b, w')) : w.Went fname truncate w' := by
  rw [subdirMade] at h
  split at h
  · cases h
    exact .refl fname truncate w
  · split at h
    · next hexists =>
      cases h
      exact pathExists_went hexists
    · next hexists => exact (pathExists_went hexists).trans (mkdir_went h0 hx h)

theorem take_tokenPos_separated (hpath : fname = path ++ separator :: y) (searchOffset : Nat) :
    ∃ z, fname = path.take (tokenPos path searchOffset) ++ separator :: z := by
  rcases token_cases path searchOffset with ⟨hall, -⟩ | ⟨rest, hrest, -⟩
  · exact ⟨y, hall.symm ▸ hpath⟩
  · refine ⟨rest ++ separator :: y, ?_⟩
    rw [← List.cons_append, ← List.append_assoc, ← hrest]
    exact hpath

theorem createDirLoop_went (h0 : 0 ∉ fname) (hpath : fname = path ++ separator :: y) (w : Files)
    (searchOffset : Nat) : w.Went fname truncate (createDirLoop w path searchOffset).2 := by
  fun_induction createDirLoop w path searchOffset with
  | case1 w searchOffset w₁ hmade =>
    obtain ⟨z, hz⟩ := take_tokenPos_separated hpath searchOffset
    exact subdirMade_went h0 hz hmade
  | case2 w searchOffset w₁ hmade hlt ih =>
    obtain ⟨z, hz⟩ := take_tokenPos_separated hpath searchOffset
    exact (subdirMade_went h0 hz hmade).trans ih
  | case3 w searchOffset w₁ hmade hlt =>
    obtain ⟨z, hz⟩ := take_tokenPos_separated hpath searchOffset
    exact subdirMade_went h0 hz hmade

theorem createDir_went (h0 : 0 ∉ fname) (w : Files) :
    w.Went fname truncate (createDir w (dirName fname)).2 := by
  rw [createDir]
  split
  · next hexists => exact pathExists_went hexists
  · next w₁ hexists =>
    split
    · exact pathExists_went hexists
    · next hne =>
      rcases dirName_cases fname with ⟨last, hpath, -⟩ | ⟨-, hnone⟩
      · exact (pathExists_went hexists).trans (createDirLoop_went h0 hpath w₁ 0)
      · exact absurd hnone hne

theorem openNode_touches {anew : Bool} (h : Tree.openNode t fname anew = some (fp, t'))
    (hanew : anew = true → truncate = true) : Touches fname truncate t t' := by
  obtain ⟨ns, last, name, p, hns, hlast, hwalk, rfl, hhow⟩ := openNode_cases h
  have htarget := target_of_walk hns hlast hwalk
  rcases hhow with ⟨hfile, rfl⟩ | ⟨hdir, hfree, rfl⟩
  · cases anew with
    | false => exact .refl fname truncate t
    | true =>
      refine ⟨rfl, fun q => ?_⟩
      by_cases hq : q = p ++ [name]
      · subst hq
        exact .inr (.inr ⟨htarget.symm, FileTree.node_truncate_self hfile,
          .inr ⟨hanew rfl, hfile⟩⟩)
      · exact .inl (FileTree.node_truncate_of_ne hfile hq)
  · refine ⟨rfl, fun q => ?_⟩
    by_cases hq : q = p ++ [name]
    · subst hq
      exact .inr (.inr ⟨htarget.symm, FileTree.node_add_self hdir hfree, .inl hfree⟩)
    · exact .inl (FileTree.node_add_of_ne hdir hfree hq)

theorem fopenS_went {anew : Bool} {r : Option (List Name)} (h0 : 0 ∉ fname)
    (h : fopenS w fname anew = (r, w')) (hanew : anew = true → truncate = true) :
    w.Went fname truncate w' := by
  apply call_went h
  intro fp t' hopened
  rw [cStr_of_noNul h0] at hopened
  exact openNode_touches hopened hanew

theorem fopenTruncating_cases {r : Option (List Name)}
    (h : fopenTruncating w fname truncate = (r, w')) :
    truncate = false ∧ fopenS w fname false = (r, w') ∨
      truncate = true ∧ (r = none ∧ fopenS w fname true = (none, w') ∨
        ∃ fp w₁, fopenS w fname true = (some fp, w₁) ∧ fopenS w₁ fname false = (r, w')) := by
  rw [fopenTruncating] at h
  cases truncate with
  | false => exact .inl ⟨rfl, h⟩
  | true =>
    right
    obtain ⟨r₁, w₁, hanew⟩ : ∃ r₁ w₁, fopenS w fname true = (r₁, w₁) := ⟨_, _, rfl⟩
    simp only [if_true, hanew] at h
    cases r₁ with
    | none =>
      cases h
      exact ⟨rfl, .inl ⟨rfl, hanew⟩⟩
    | some fp => exact ⟨rfl, .inr ⟨fp, w₁, hanew, h⟩⟩

theorem fopenTruncating_went {r : Option (List Name)} (h0 : 0 ∉ fname)
    (h : fopenTruncating w fname truncate = (r, w')) : w.Went fname truncate w' := by
  rcases fopenTruncating_cases h with ⟨rfl, h⟩ | ⟨rfl, ⟨-, h⟩ | ⟨fp, w₁, hanew, h⟩⟩
  · exact fopenS_went h0 h id
  · exact fopenS_went h0 h id
  · exact (fopenS_went h0 hanew id).trans (fopenS_went h0 h fun _ => rfl)

theorem tryOpen_went {r : Option (List Name)} (h0 : 0 ∉ fname)
    (h : tryOpen w fname truncate = (r, w')) : w.Went fname truncate w' :=
  (createDir_went h0 w).trans (fopenTruncating_went h0 h)

theorem openLoop_went {r : Option (List Name)} (h0 : 0 ∉ fname) {tries : Nat}
    (h : openLoop fname truncate tries w = (r, w')) : w.Went fname truncate w' := by
  induction tries generalizing w with
  | zero =>
    cases h
    exact .refl fname truncate _
  | succ tries ih =>
    obtain ⟨r₁, w₁, htry⟩ : ∃ r₁ w₁, tryOpen w fname truncate = (r₁, w₁) := ⟨_, _, rfl⟩
    have hwent := tryOpen_went h0 htry
    rw [openLoop, htry] at h
    cases r₁ with
    | none => exact hwent.trans (ih h)
    | some fd =>
      cases h
      exact hwent

end Went

end FileHelper

end Gortsp
