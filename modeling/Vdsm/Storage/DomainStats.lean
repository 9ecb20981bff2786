import Vdsm.Lib.LineText
import Vdsm.Lib.Utf8Lossy
import Vdsm.Storage.Pool

/-!
# The space of a domain (`vdsm-storage/src/domain.rs`)

`StorageDomain.getStats` reports how large a domain is and how much of it is free, `StoragePool.getInfo`
how much is free in each domain of the pool. Both ask `sd_total_free`, which runs `df` or `vgs`. For a
domain that is not there `getStats` is an error, and the pool reports it as active and full.
-/

namespace Vdsm.Storage

open Rust Supervdsm

section

variable {host : Host} {st : State} {params : Value} {sd : String}

end

/-! ## The pool -/

/-- The size and the free space of a file system or a VG, and the blanks that align them. -/
structure Usage where
  total : ℕ
  free : ℕ
  left : ℕ
  gap : ℕ
  total_le : total ≤ u64Max
  free_le : free ≤ u64Max

namespace Usage

def row (u : Usage) : String :=
  spaces u.left ++ (toString u.total ++ spaces (u.gap + 1) ++ toString u.free)

/-- The output of `vgs --noheadings -o vg_size,vg_free`. -/
def vgs (u : Usage) : String := u.row ++ "\n"

end Usage

end Vdsm.Storage
