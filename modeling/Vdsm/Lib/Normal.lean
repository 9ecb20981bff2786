import Vdsm.Lib.Path

/-!
# Lexical normalisation of paths

`cleanPath` drops empty and `.` components and lets `..` cancel the component before it, without
looking at any file system. The net of a list of components is how far it climbs and what it names
after that; `walk_eq` reads the walk from any directory off the net, and `below_walk_iff` says when
it ends strictly below a directory of the same depth. `cleanPath_joinAll` is the effect of a chain of
`Path::join`, in which an absolute string starts over.
-/

namespace Rust

/-- One component, from a directory. -/
def walkStep (dir : List String) (c : String) : List String :=
  if c = ".." then dir.dropLast else dir ++ [c]

/-- The components of a relative path, from a directory. -/
def walk (dir cs : List String) : List String := cs.foldl walkStep dir

/-- Lexical normalisation, as components below the root. -/
def cleanPath (p : String) : List String := walk [] (components p)

/-- Strictly below a directory. -/
def Below (dir loc : List String) : Prop := ∃ c cs, loc = dir ++ c :: cs

@[simp] theorem walk_nil (dir : List String) : walk dir [] = dir := rfl

/-- Names that are followed in two lots. -/
theorem walk_append (dir cs ds : List String) : walk dir (cs ++ ds) = walk (walk dir cs) ds :=
  List.foldl_append

/-- The last name is followed last. -/
theorem walk_concat (dir cs : List String) (c : String) :
    walk dir (cs ++ [c]) = walkStep (walk dir cs) c := by
  rw [walk_append]
  rfl

/-- Without `..` a walk only goes down. -/
theorem walk_of_no_parent {cs : List String} (h : ".." ∉ cs) (dir : List String) :
    walk dir cs = dir ++ cs := by
  induction cs generalizing dir with
  | nil => simp
  | cons c cs ih =>
    obtain ⟨hc, hcs⟩ := List.ne_and_not_mem_of_not_mem_cons h
    have hstep : walkStep dir c = dir ++ [c] := if_neg (Ne.symm hc)
    rw [walk, List.foldl_cons, hstep]
    exact (ih hcs _).trans (by simp)

/-- No `..` is left by a walk from a directory without one. -/
theorem no_parent_walk {dir : List String} (h : ".." ∉ dir) (cs : List String) :
    ".." ∉ walk dir cs := by
  induction cs generalizing dir with
  | nil => exact h
  | cons c cs ih =>
    have hstep : ".." ∉ walkStep dir c := by
      rw [walkStep]
      split_ifs with hc
      · exact fun hmem => h (List.mem_of_mem_dropLast hmem)
      · simp [h, Ne.symm hc]
    exact ih hstep

/-! ## The net of a path -/

/-- How many directories a path climbs out of, and what it names from there. -/
structure Net where
  up : ℕ
  down : List String
deriving DecidableEq, Repr

/-- One more component. -/
def Net.step (n : Net) (c : String) : Net :=
  if c = ".." then
    if n.down = [] then { n with up := n.up + 1 } else { n with down := n.down.dropLast }
  else { n with down := n.down ++ [c] }

/-- The net of a list of components. -/
def net (cs : List String) : Net := cs.foldl Net.step ⟨0, []⟩

/-- The net effect of names, one more at the end. -/
theorem net_concat (cs : List String) (c : String) : net (cs ++ [c]) = (net cs).step c := by
  simp [net]

/-- A walk from any directory, read off the net. -/
theorem walk_eq (dir cs : List String) :
    walk dir cs = dir.take (dir.length - (net cs).up) ++ (net cs).down := by
  induction cs using List.reverseRecOn with
  | nil => simp [net]
  | append_singleton cs c ih =>
    rw [walk_concat, ih, net_concat, walkStep, Net.step]
    by_cases hc : c = ".."
    · by_cases hdown : (net cs).down = []
      · -- one directory further up
        simp only [hc, hdown, if_true, List.append_nil]
        rw [List.dropLast_eq_take, List.take_take, List.length_take]
        congr 1
        omega
      · simp only [hc, hdown, if_true, if_false]
        rw [List.dropLast_append_of_ne_nil hdown]
    · simp [hc]

/-- From the root nothing is climbed. -/
theorem walk_root (cs : List String) : walk [] cs = (net cs).down := by
  rw [walk_eq]
  simp

/-- A walk ends strictly below a directory of the depth it started at exactly when the two share what
was not climbed out of, and the path names the rest again and goes on. -/
theorem below_walk_iff {base dir : List String} (hlen : base.length = dir.length) (cs : List String) :
    Below base (walk dir cs) ↔
      base.take (dir.length - (net cs).up) = dir.take (dir.length - (net cs).up) ∧
        Below (base.drop (dir.length - (net cs).up)) (net cs).down := by
  rw [walk_eq]
  set n := dir.length - (net cs).up
  have hsplit : base.take n ++ base.drop n = base := List.take_append_drop n base
  constructor
  · rintro ⟨c, ds, heq⟩
    rw [← hsplit, List.append_assoc] at heq
    obtain ⟨htake, hdown⟩ := List.append_inj heq (by simp [hlen])
    exact ⟨htake.symm, c, ds, hdown⟩
  · rintro ⟨htake, c, ds, hdown⟩
    refine ⟨c, ds, ?_⟩
    rw [hdown, ← htake, ← List.append_assoc, hsplit]

/-! ## Joined paths -/

/-- Is the path absolute? -/
def isAbsolute (p : String) : Bool := startsWith p "/"

/-- What is appended behind a slash adds its own components. -/
theorem components_append_of_slash {base : String} (h : base = "" ∨ base.toList.getLast? = some '/')
    (p : String) : components (base ++ p) = components base ++ components p := by
  rcases h with rfl | h
  · have hempty : components "" = [] := by decide
    rw [hempty, String.empty_append, List.nil_append]
  · -- the last slash of the base separates the two
    obtain ⟨l, hl⟩ := List.getLast?_eq_some_iff.mp h
    have hbase : base = String.ofList l ++ "/" ++ "" := by
      rw [← String.toList_inj]
      simp [hl]
    have hempty : components "" = [] := by decide
    conv_lhs => rw [hbase, String.append_empty, components_append_slash]
    rw [hbase, components_append_slash, hempty, List.append_nil]

/-- The components of a joined path. -/
theorem components_pathJoin (base p : String) :
    components (pathJoin base p)
      = if isAbsolute p then components p else components base ++ components p := by
  rw [pathJoin, isAbsolute]
  split_ifs with habs hbase
  · rfl
  · exact components_append_of_slash hbase p
  · exact components_append_slash base p

/-- `base.join(x).join(y)…` -/
def joinAll (base : String) (xs : List String) : String := xs.foldl pathJoin base

/-- The components from the last absolute string on, if there is one. -/
def restart : List String → Option (List String)
  | [] => none
  | x :: xs =>
    match restart xs with
    | some cs => some cs
    | none => if isAbsolute x then some ((x :: xs).flatMap components) else none

/-- The components of a chain of joins: what precedes an absolute string is lost. -/
theorem components_joinAll (base : String) (xs : List String) :
    components (joinAll base xs)
      = (restart xs).getD (components base ++ xs.flatMap components) := by
  induction xs generalizing base with
  | nil => simp [joinAll, restart]
  | cons x xs ih =>
    have hjoin : joinAll base (x :: xs) = joinAll (pathJoin base x) xs := rfl
    rw [hjoin, ih, restart, components_pathJoin]
    cases restart xs with
    | some cs => rfl
    | none =>
      cases isAbsolute x with
      | true => simp
      | false => simp

/-- One more name leads further down. -/
theorem Below.concat {base dir : List String} (h : Below base dir) (d : String) :
    Below base (dir ++ [d]) := by
  obtain ⟨c, cs, rfl⟩ := h
  exact ⟨c, cs ++ [d], by simp⟩

/-- Where one component leads strictly below a directory, a name in its place does too. -/
theorem below_walkStep {base dir : List String} {c d : String} (hd : d ≠ "..")
    (h : Below base (walkStep dir c)) : Below base (walkStep dir d) := by
  obtain ⟨e, es, heq⟩ := h
  have hpre : base <+: dir := by
    rw [walkStep] at heq
    split_ifs at heq
    · exact (List.prefix_append base (e :: es)).trans (heq ▸ List.dropLast_prefix dir)
    · obtain ⟨init, last, hlast⟩ : ∃ init last, e :: es = init ++ [last] :=
        ⟨_, _, (List.dropLast_append_getLast (List.cons_ne_nil e es)).symm⟩
      rw [hlast, ← List.append_assoc] at heq
      exact ⟨init, (List.append_inj' heq rfl).1.symm⟩
  obtain ⟨rest, rfl⟩ := hpre
  cases rest with
  | nil => exact ⟨d, [], by simp [walkStep, hd]⟩
  | cons x rest => exact ⟨x, rest ++ [d], by simp [walkStep, hd]⟩

/-- A suffix with more than dots in it makes a name of the last component. -/
theorem cleanPath_append {p sfx : String} (hsfx : isNameSuffix sfx = true) :
    ∃ dir last, cleanPath (p ++ sfx) = dir ++ [last ++ sfx] ∧
      cleanPath p = if isTrivial last then dir else walkStep dir last := by
  obtain ⟨init, last, hsplit⟩ : ∃ init last, splitChar '/' p = init ++ [last] :=
    ⟨_, _, (List.dropLast_append_getLast (splitChar_ne_nil '/' p)).symm⟩
  have hsplit' : splitChar '/' (p ++ sfx) = init ++ [last ++ sfx] := by
    rw [splitChar_append_of_not_mem p (not_mem_slash_of_isNameSuffix hsfx), hsplit]
    simp
  obtain ⟨htriv, hparent⟩ := isNameSuffix_append hsfx last
  refine ⟨walk [] (init.filter fun c => !isTrivial c), last, ?_, ?_⟩
  · rw [cleanPath, components, hsplit', List.filter_append, walk_append]
    simp [htriv, walk, walkStep, hparent]
  · rw [cleanPath, components, hsplit, List.filter_append, walk_append]
    cases htriv' : isTrivial last with
    | true => simp [htriv']
    | false => simp [htriv', walk]

/-- So it leads elsewhere. -/
theorem cleanPath_append_ne {p sfx : String} (hsfx : isNameSuffix sfx = true) :
    cleanPath (p ++ sfx) ≠ cleanPath p := by
  obtain ⟨dir, last, hnew, hold⟩ := @cleanPath_append p sfx hsfx
  have hne : last ++ sfx ≠ last := by
    intro h
    have hlen := congrArg (fun s : String => s.toList.length) h
    have hempty : sfx.toList = [] := by simpa using hlen
    simp [isNameSuffix, hempty] at hsfx
  rw [hnew, hold]
  intro h
  split_ifs at h
  · simpa using congrArg List.length h
  · rw [walkStep] at h
    split_ifs at h
    · have hlen := congrArg List.length h
      simp at hlen
      omega
    · exact hne (by simpa using h)

/-- A path that is strictly below a directory stays there. -/
theorem below_cleanPath_append {base : List String} {p sfx : String}
    (hsfx : isNameSuffix sfx = true) (h : Below base (cleanPath p)) :
    Below base (cleanPath (p ++ sfx)) := by
  obtain ⟨dir, last, hnew, hold⟩ := @cleanPath_append p sfx hsfx
  obtain ⟨-, hparent⟩ := isNameSuffix_append hsfx last
  rw [hnew]
  rw [hold] at h
  split_ifs at h
  · exact h.concat _
  · have hbelow := below_walkStep hparent h
    rwa [walkStep, if_neg hparent] at hbelow

end Rust
