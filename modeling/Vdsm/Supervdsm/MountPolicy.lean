import Vdsm.Storage.Connection
import Vdsm.Supervdsm.Exec

/-!
# What the unprivileged side can have mounted, and where

The typed boundary is there so that the caller cannot obtain bind mounts, remounts or loop mounts,
and can mount and unmount below the mount root only. `mount_options_confined` and
`target_confined` say exactly for which requests `execute` achieves that.
-/

namespace Vdsm.Supervdsm

open Rust Storage

/-! ## Options -/

/-- The name of a mount option: what stands before its `=`. -/
def optionName (o : String) : String := String.ofList (o.toList.takeWhile (· ≠ '='))

/-- The options that turn a mount into another operation. -/
def escalating : List String := ["bind", "rbind", "move", "remount", "loop"]

/-- Does a comma-separated option list hold an escalating option, with or without a value? -/
def escalates (options : String) : Bool :=
  (splitChar ',' options).any fun o => escalating.contains (optionName o)

/-- The option lists of an argv: what follows `-o`. -/
def optionLists : List String → List String
  | "-o" :: o :: rest => o :: optionLists rest
  | _ :: rest => optionLists rest
  | [] => []

/-- Does an action mount with an escalating option? -/
def Action.escalates : Action → Bool
  | .spawn _ args => (optionLists args).any Supervdsm.escalates
  | .write _ _ => false

/-- The checks of `PrivOp::Mount`. -/
def mountAccepted (fstype spec target options : String) : Bool :=
  validFstype fstype && validTarget target &&
    !(spec == "" || startsWith spec "-" || containsChar spec '\x00') &&
    !(startsWith options "-" || containsChar options '\x00')

/-- A mount request is refused, or spawns `mount` with its options and operands. -/
theorem execute_mount (host : Host) (fstype spec target options : String) :
    (execute host (.mount fstype spec target options)).2 =
      if mountAccepted fstype spec target options then
        [.spawn "/usr/bin/mount" (["-t", fstype] ++
          (if options = "" then [] else ["-o", options]) ++ [spec, target])]
      else [] := by
  have hdash : startsWith "" "-" = false := by decide
  have hnul : containsChar "" '\x00' = false := by decide
  rw [execute]
  -- one goal for each way through the checks
  split_ifs
  all_goals simp_all [mountAccepted, invalid, run]

/-- An inert argument is no `-o`. -/
theorem optionLists_cons_inert {a : String} (ha : Inert a) (rest : List String) :
    optionLists (a :: rest) = optionLists rest := by
  have hne : a ≠ "-o" := by
    rintro rfl
    exact ha.no_dash rfl
  cases rest with
  | nil => simp [optionLists]
  | cons b rest =>
    rw [optionLists]
    exact fun _ _ heq _ => hne heq

/-- The option lists of an accepted mount: the caller's options, if there are any. -/
theorem optionLists_mount {fstype spec target options : String}
    (h : mountAccepted fstype spec target options = true) :
    optionLists (["-t", fstype] ++ (if options = "" then [] else ["-o", options]) ++ [spec, target])
      = if options = "" then [] else [options] := by
  simp only [mountAccepted, Bool.and_eq_true, Bool.not_eq_true', Bool.or_eq_false_iff] at h
  obtain ⟨⟨⟨hfs, ht⟩, ⟨hempty, hdash⟩, hnul⟩, -⟩ := h
  have hfs := validFstype_inert hfs
  have ht := validTarget_inert ht
  have hspec : Inert spec := inert_of_checks (by simp_all)
  split_ifs
  · simp [optionLists, optionLists_cons_inert, hfs, hspec, ht]
  · simp [optionLists, optionLists_cons_inert, hfs, hspec, ht]

/-- No options escalate nothing. -/
theorem escalates_empty : escalates "" = false := by decide

/-- Mount cannot be turned into bind, remount or loop, exactly when the request is refused for its
other fields or the caller asked for none of them: `execute` looks at no option but the first
character of the list. -/
theorem mount_options_confined (host : Host) (fstype spec target options : String) :
    (∀ a ∈ (execute host (.mount fstype spec target options)).2, a.escalates = false) ↔
      (mountAccepted fstype spec target options = false ∨ escalates options = false) := by
  rw [execute_mount]
  cases hacc : mountAccepted fstype spec target options with
  | false => simp
  | true =>
    simp only [if_true, List.mem_singleton, forall_eq, Action.escalates, optionLists_mount hacc]
    by_cases hopt : options = ""
    · simp [hopt, escalates_empty]
    · simp [hopt]

/-- `mount -t none -o bind /etc` is accepted. -/
theorem mount_bind_accepted :
    ¬ ∀ a ∈ (execute quietHost (.mount "none" "/etc" "/rhev/data-center/mnt/x" "bind")).2,
      a.escalates = false := by
  rw [execute_mount]
  decide

/-! ## Targets -/

/-- The components of the mount root. -/
def rootComponents : List String := ["rhev", "data-center", "mnt"]

/-- Strictly below the mount root, with no way up. -/
structure Confined (t : String) : Prop where
  no_parent : ".." ∉ components t
  below : ∃ c cs, components t = rootComponents ++ c :: cs

/-- A direct child of the mount root. -/
def DirectChild (t : String) : Prop := ∃ c, components t = rootComponents ++ [c]

/-- What follows the mount root, if the string starts with it, has a component other than the empty
one and `.`. -/
def NamesEntry (t : String) : Prop := ∀ r, t = mountRoot ++ r → components r ≠ []

/-- What is below the root of the mounts has its components first. -/
theorem components_mountRoot_append (r : String) :
    components (mountRoot ++ r) = rootComponents ++ components r := by
  have hroot : components "/rhev/data-center/mnt" = rootComponents := by decide
  rw [← hroot, ← components_append_slash]
  rfl

/-- A prefix is what something can be appended to. -/
theorem startsWith_iff {s p : String} : startsWith s p = true ↔ ∃ r, s = p ++ r := by
  rw [startsWith, List.isPrefixOf_iff_prefix]
  constructor
  · rintro ⟨t, ht⟩
    exact ⟨String.ofList t, by rw [← String.toList_inj]; simp [ht]⟩
  · rintro ⟨r, rfl⟩
    simp

/-- Nothing that ends in a slash can lend a dot to what follows. -/
theorem dots_infix_append {a b : List Char} (ha : '.' ∉ a) (h : ['.', '.'] <:+: a ++ b) :
    ['.', '.'] <:+: b := by
  induction a with
  | nil => exact h
  | cons c a ih =>
    rw [List.cons_append, List.infix_cons_iff] at h
    rcases h with hpre | hin
    · have hc : '.' = c := (List.cons_prefix_cons.mp hpre).1
      exact absurd (hc ▸ List.mem_cons_self) ha
    · exact ih (fun hm => ha (by simp [hm])) hin

/-- The mount root itself, in any spelling that only adds slashes and dots, is accepted. -/
theorem validTarget_root {r : String} (h : components r = []) :
    validTarget (mountRoot ++ r) = true := by
  obtain ⟨hdots, hchars⟩ := no_dots_of_components_nil h
  have hstart : startsWith (mountRoot ++ r) mountRoot = true := startsWith_iff.mpr ⟨r, rfl⟩
  have hnodots : contains (mountRoot ++ r) ".." = false := by
    rw [Bool.eq_false_iff, ne_eq, contains_iff, String.toList_append]
    intro hin
    have hr : contains r ".." = true := contains_iff.mpr (dots_infix_append (by decide) hin)
    simp [hr] at hdots
  have hnul : containsChar (mountRoot ++ r) '\x00' = false := by
    rw [Bool.eq_false_iff, ne_eq, containsChar_iff, String.toList_append, List.mem_append]
    rintro (hm | hm)
    · exact absurd hm (by decide)
    · rcases hchars _ hm with hc | hc <;> simp at hc
  simp [validTarget, hstart, hnodots, hnul]

/-- An accepted target starts with the mount root and never goes up. -/
theorem validTarget_spec {t : String} (h : validTarget t = true) :
    (∃ r, t = mountRoot ++ r) ∧ ".." ∉ components t := by
  simp only [validTarget, Bool.and_eq_true, Bool.not_eq_true'] at h
  obtain ⟨⟨hroot, hdots⟩, -⟩ := h
  refine ⟨startsWith_iff.mp hroot, fun hmem => ?_⟩
  have hcontains : contains t ".." = true := contains_iff.mpr (infix_of_mem_components hmem)
  simp [hcontains] at hdots

/-- A valid target is confined exactly if it names an entry. -/
theorem validTarget_confined_iff (t : String) :
    (validTarget t = true → Confined t) ↔ NamesEntry t := by
  constructor
  · rintro h r rfl hnil
    -- without an entry the target is the root, accepted and not below itself
    obtain ⟨c, cs, hcs⟩ := (h (validTarget_root hnil)).below
    rw [components_mountRoot_append, hnil] at hcs
    simp at hcs
  · intro h hvalid
    obtain ⟨⟨r, rfl⟩, hparent⟩ := validTarget_spec hvalid
    obtain ⟨c, cs, hcs⟩ := List.exists_cons_of_ne_nil (h r rfl)
    exact ⟨hparent, c, cs, by rw [components_mountRoot_append, hcs]⟩

/-- An unmount is run exactly for a valid target. -/
theorem execute_umount (host : Host) (t : String) :
    (execute host (.umount t)).2 ≠ [] ↔ validTarget t = true := by
  rw [execute]
  cases hv : validTarget t <;> simp [invalid, run]

/-- The mount point of a connection is the root plus one component, or the root. -/
theorem components_mountpoint (spec : StorageServerConnection) :
    components spec.mountpoint = rootComponents ++
      if isTrivial spec.connection then [] else [replaceChar '/' '_' spec.connection] := by
  have hroot : components mntBase = rootComponents := by decide
  rw [mountpoint_eq, components_append_slash, hroot,
    components_of_not_mem (slash_not_mem_escaped _), isTrivial_escaped]

/-- Mount-target confinement. An accepted target lies strictly below the mount root exactly when
what follows the root names an entry, and `execute` mounts and unmounts nowhere else; the mount
point of a connection, if accepted, is a direct child of the root exactly when the connection
string is neither empty nor `.`. -/
theorem target_confined (host : Host) (t fstype src options : String)
    (spec : StorageServerConnection) :
    ((validTarget t = true → Confined t) ↔ NamesEntry t) ∧
      (((execute host (.umount t)).2 ≠ [] → Confined t) ↔ NamesEntry t) ∧
      (((execute host (.mount fstype src t options)).2 ≠ [] → Confined t) ↔
        (mountAccepted fstype src t options = true → NamesEntry t)) ∧
      ((validTarget spec.mountpoint = true → DirectChild spec.mountpoint) ↔
        (spec.connection ≠ "" ∧ spec.connection ≠ ".")) := by
  refine ⟨validTarget_confined_iff t, ?_, ?_, ?_⟩
  · rw [execute_umount, validTarget_confined_iff]
  · rw [execute_mount]
    cases hacc : mountAccepted fstype src t options with
    | false => simp
    | true =>
      have hvalid : validTarget t = true := by
        simp only [mountAccepted, Bool.and_eq_true] at hacc
        exact hacc.1.1.2
      simp [← validTarget_confined_iff, hvalid]
  · have htriv : isTrivial spec.connection = false ↔
        (spec.connection ≠ "" ∧ spec.connection ≠ ".") := by
      simp [isTrivial]
    rw [← htriv, DirectChild, components_mountpoint]
    cases hc : isTrivial spec.connection with
    | false => simp
    -- such a connection is mounted on the root itself, which `valid_target` accepts
    | true =>
      have hroot : spec.mountpoint = mountRoot ++ replaceChar '/' '_' spec.connection := by
        rw [mountpoint_eq]
        rfl
      have hnil : components (replaceChar '/' '_' spec.connection) = [] := by
        rw [components_of_not_mem (slash_not_mem_escaped _), isTrivial_escaped, hc]
        rfl
      rw [hroot]
      simp [validTarget_root hnil]

/-- The mount root with its slash is accepted, and it is where an empty connection string goes. -/
theorem root_accepted :
    (validTarget "/rhev/data-center/mnt/" = true ∧ ¬ Confined "/rhev/data-center/mnt/") ∧
      ∃ spec : StorageServerConnection, spec.connection = "" ∧
        validTarget spec.mountpoint = true ∧ ¬ DirectChild spec.mountpoint := by
  refine ⟨⟨by decide, ?_⟩, ⟨"", "", "", "", ""⟩, rfl, by decide, ?_⟩
  · rintro ⟨-, c, cs, h⟩
    rw [show components "/rhev/data-center/mnt/" = rootComponents by decide] at h
    simp at h
  · rintro ⟨c, h⟩
    rw [components_mountpoint] at h
    simp [isTrivial] at h

end Vdsm.Supervdsm
