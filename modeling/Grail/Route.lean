import Mathlib

/-! # The routing table

`HgRoutingProtocol`: the entries that netlink requests add and delete.  Two entries are equal
when destination and prefix length agree. -/

namespace Grail

structure RtEntry where
  dst : ℕ
  len : ℕ
  gw : ℕ
deriving DecidableEq, Repr

namespace RtEntry

/-- `RtEntry::operator==`. -/
def eq (a b : RtEntry) : Bool := a.dst = b.dst && a.len = b.len

/-- `DelRoute`: the first equal entry is erased. -/
def delRoute (entries : List RtEntry) (dst len gw : ℕ) : List RtEntry :=
  entries.eraseP fun e => e.eq ⟨dst, len, gw⟩

/-- `AddRoute`: the first equal entry is erased and the new one appended. -/
def addRoute (entries : List RtEntry) (dst len gw : ℕ) : List RtEntry :=
  delRoute entries dst len gw ++ [⟨dst, len, gw⟩]

end RtEntry

end Grail
