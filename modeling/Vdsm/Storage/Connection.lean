import Vdsm.Lib.Path

/-!
# Storage server connections (`vdsm-storage/src/connection.rs`)

A connection is mounted below `mntBase`, under its connection string with the slashes replaced.
-/

namespace Vdsm.Storage

open Rust

/-- `MNT_BASE`. -/
def mntBase : String := "/rhev/data-center/mnt"

/-- `StorageServerConnection`. -/
structure StorageServerConnection where
  id : String
  connection : String
  vfsType : String
  mntOptions : String
  protocolVersion : String
deriving DecidableEq, Repr

/-- Where the connection is mounted. -/
def StorageServerConnection.mountpoint (spec : StorageServerConnection) : String :=
  pathJoin mntBase (replaceChar '/' '_' spec.connection)

/-- No slash is left in an escaped name. -/
theorem slash_not_mem_escaped (s : String) : '/' ∉ (replaceChar '/' '_' s).toList := by
  intro h
  simp only [replaceChar, String.toList_ofList, List.mem_map] at h
  obtain ⟨c, -, hc⟩ := h
  split at hc
  · simp at hc
  · rename_i hne
    exact hne hc

/-- The escaped connection string is never absolute. -/
theorem mountpoint_eq (spec : StorageServerConnection) :
    spec.mountpoint = mntBase ++ "/" ++ replaceChar '/' '_' spec.connection :=
  pathJoin_relative (startsWith_slash_of_not_mem (slash_not_mem_escaped _)) (by decide) (by decide)

/-- Escaping changes no string into an empty one or a dot. -/
theorem isTrivial_escaped (s : String) : isTrivial (replaceChar '/' '_' s) = isTrivial s := by
  rw [Bool.eq_iff_iff, isTrivial_iff, isTrivial_iff, replaceChar, String.toList_ofList]
  match s.toList with
  | [] => simp
  | [c] =>
    simp only [List.map_cons, List.map_nil, List.cons.injEq, and_true]
    split
    · rename_i hc
      simp [hc]
    · rfl
  | c :: d :: l => simp

end Vdsm.Storage
