import Vdsm.Host.Numa
import Vdsm.Lib.Ipv4
import Vdsm.Lib.LineText
import Vdsm.Lib.Utf8Lossy

/-!
# The management network

Reference: `vdsm-host/src/sysinfo.rs`, `nic_names` to `default_gateway`, and the networks in
`vdsm-host/src/caps.rs` and `vdsm-host/src/stats.rs`.

`get_capabilities` reports one network card, the one that `mgmt_iface` picks, with the address that
`ip` prints for it; `get_stats` has an entry for every card and for the bridge. The two agree unless
there is no card to pick.
-/

namespace Vdsm.Host

open Rust

/-! ## Cards -/

/-- `/sys/class/net`: the cards, if the directory can be read, and the files of a card as far as they
can be read. -/
structure NetSys where
  entries : Option (List String)
  carrier : String → Option String
  operstate : String → Option String

/-- `nic_names`. -/
def nicNames (sys : NetSys) : List String :=
  match sys.entries with
  | none => []
  | some names => (names.filter (· ≠ "lo")).mergeSort fun a b => decide (a ≤ b)

/-- `skip` of `mgmt_iface`. -/
def skips (n : String) : Bool :=
  n == "lo" || startsWith n "virbr" || startsWith n "docker" || startsWith n "br-" ||
    startsWith n "veth" || startsWith n "vnet" || startsWith n "ovirtmgmt"

/-- A card with a carrier that is up, or whose state is not known. -/
def isUp (sys : NetSys) (n : String) : Bool :=
  let carrier := ((sys.carrier n).map fun s => trim s == "1").getD false
  let operstate := ((sys.operstate n).map trim).getD ""
  carrier && (operstate == "up" || operstate == "unknown")

/-- `mgmt_iface`. -/
def mgmtIface (sys : NetSys) : String :=
  let candidates := nicNames sys
  match candidates.find? fun n => !skips n && isUp sys n with
  | some n => n
  | none => (candidates.find? fun n => !skips n).getD "lo"

/-! ## Addresses -/

/-- An address of an interface, as a line of `ip -4 -o addr show`. -/
structure AddrLine where
  index : ℕ
  label : String
  addr : UInt32
  bits : ℕ
  tail : String
  label_ok : (isWord label && !containsChar label '/') = true
  bits_le : bits ≤ 32

def AddrLine.cidr (l : AddrLine) : String := displayIpv4 l.addr ++ "/" ++ toString l.bits

def AddrLine.text (l : AddrLine) : String :=
  toString l.index ++ ":" ++ " " ++ (l.label ++ "    " ++ ("inet" ++ " " ++ (l.cidr ++ " " ++ l.tail))) ++ "\n"

/-- The cards that `get_capabilities` reports. -/
def capsNics (sys : NetSys) : List String := [mgmtIface sys]

/-- The cards that `get_stats` has statistics for. -/
def statsNics (sys : NetSys) : List String := nicNames sys ++ ["ovirtmgmt"]

/-- The loopback interface is never listed. -/
theorem lo_not_mem_nicNames (sys : NetSys) : "lo" ∉ nicNames sys := by
  unfold nicNames
  split <;> simp

/-- The names are sorted. -/
theorem pairwise_nicNames (sys : NetSys) : (nicNames sys).Pairwise (· ≤ ·) := by
  unfold nicNames
  split
  · exact .nil
  · refine (List.pairwise_mergeSort (fun a b c hab hbc => ?_) (fun a b => ?_) _).imp fun h => ?_
    · rw [decide_eq_true_eq] at hab hbc ⊢
      exact String.le_trans hab hbc
    · rw [Bool.or_eq_true, decide_eq_true_eq, decide_eq_true_eq]
      exact String.le_total a b
    · exact of_decide_eq_true h

/-- The first of a sorted list is the least. -/
theorem le_of_find?_eq_some {l : List String} {q : String → Bool} {n m : String}
    (hl : l.Pairwise (· ≤ ·)) (h : l.find? q = some n) (hm : m ∈ l) (hq : q m = true) : n ≤ m := by
  induction l with
  | nil => cases h
  | cons a l ih =>
    obtain ⟨ha, hrest⟩ := List.pairwise_cons.mp hl
    by_cases hqa : q a = true
    · rw [List.find?_cons_of_pos hqa] at h
      obtain rfl := Option.some.inj h
      rcases List.mem_cons.mp hm with rfl | hm
      · exact String.le_refl m
      · exact ha m hm
    · rw [List.find?_cons_of_neg hqa] at h
      rcases List.mem_cons.mp hm with rfl | hm
      · exact absurd hq hqa
      · exact ih hrest h hm

/-- How a card is picked. -/
theorem mgmtIface_cases (sys : NetSys) :
    (mgmtIface sys ∈ nicNames sys ∧ skips (mgmtIface sys) = false ∧
        ((∀ n ∈ nicNames sys, skips n = false → isUp sys n = false) ∨
          isUp sys (mgmtIface sys) = true ∧
            ∀ n ∈ nicNames sys, skips n = false → isUp sys n = true → mgmtIface sys ≤ n)) ∨
      (∀ n ∈ nicNames sys, skips n = true) ∧ mgmtIface sys = "lo" := by
  unfold mgmtIface
  dsimp only
  cases hup : (nicNames sys).find? fun n => !skips n && isUp sys n with
  | some n =>
    have hq := List.find?_some hup
    simp only [Bool.and_eq_true, Bool.not_eq_true'] at hq
    refine .inl ⟨List.mem_of_find?_eq_some hup, hq.1, .inr ⟨hq.2, fun m hm hskip hmup => ?_⟩⟩
    exact le_of_find?_eq_some (pairwise_nicNames sys) hup hm (by simp [hskip, hmup])
  | none =>
    cases hany : (nicNames sys).find? fun n => !skips n with
    | some n =>
      have hq := List.find?_some hany
      rw [Bool.not_eq_true'] at hq
      refine .inl ⟨List.mem_of_find?_eq_some hany, hq, .inl fun m hm hskip => ?_⟩
      simpa [hskip] using List.find?_eq_none.mp hup m hm
    | none =>
      refine .inr ⟨fun m hm => ?_, rfl⟩
      simpa using List.find?_eq_none.mp hany m hm

/-- The card that `mgmt_iface` picks. If a card that is not skipped is up, it is the first such one by
name; it is skipped only if all are, and then it is the loopback. The card that `get_capabilities`
reports has statistics exactly if there is one that is not skipped. -/
theorem mgmt_iface_picks (sys : NetSys) :
    (∀ n ∈ nicNames sys, skips n = false → isUp sys n = true →
        isUp sys (mgmtIface sys) = true ∧ mgmtIface sys ≤ n) ∧
      (skips (mgmtIface sys) = true ↔ ∀ n ∈ nicNames sys, skips n = true) ∧
      (skips (mgmtIface sys) = true → mgmtIface sys = "lo") ∧
      ((∀ n ∈ capsNics sys, n ∈ statsNics sys) ↔ ∃ n ∈ nicNames sys, skips n = false) := by
  have hlo : "lo" ∉ statsNics sys := by simp [statsNics, lo_not_mem_nicNames]
  rcases mgmtIface_cases sys with ⟨hmem, hskip, hup⟩ | ⟨hall, heq⟩
  · have hstats : mgmtIface sys ∈ statsNics sys := List.mem_append_left _ hmem
    refine ⟨fun n hn hns hnup => ?_, ?_, ?_, ?_⟩
    · rcases hup with hdown | ⟨hup, hleast⟩
      · rw [hdown n hn hns] at hnup
        cases hnup
      · exact ⟨hup, hleast n hn hns hnup⟩
    · rw [hskip]
      exact ⟨fun h => absurd h (by decide), fun h => absurd ((h _ hmem).symm.trans hskip) (by decide)⟩
    · exact fun h => absurd (hskip.symm.trans h) (by decide)
    · exact ⟨fun _ => ⟨_, hmem, hskip⟩, fun _ => by simpa [capsNics] using hstats⟩
  · refine ⟨fun n hn hns => absurd (hns.symm.trans (hall n hn)) (by decide), ?_, fun _ => heq, ?_⟩
    · rw [heq]
      exact ⟨fun _ => hall, fun _ => by decide⟩
    · constructor
      · intro h
        exact absurd (h _ (List.mem_singleton_self _)) (by rw [heq]; exact hlo)
      · rintro ⟨n, hn, hns⟩
        exact absurd (hns.symm.trans (hall n hn)) (by decide)

end Vdsm.Host
