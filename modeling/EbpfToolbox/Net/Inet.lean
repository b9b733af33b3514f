import Mathlib.Data.Vector.Basic

/-!
# Addresses shared by the net modules
-/

namespace EbpfToolbox.Net

/-- An IPv6 address as the probes copy it, 16 bytes in network order. -/
abbrev Addr6 : Type := Vector UInt8 16

/-- `AF_INET`. -/
def afInet : UInt16 := 2

/-- `AF_INET6`. -/
def afInet6 : UInt16 := 10

/-- `bpf_ntohs` on a little-endian machine. -/
def bpfNtohs (x : UInt16) : UInt16 := (x <<< 8) ||| (x >>> 8)

/-- Which of two sibling kernel functions a probe is attached to. -/
inductive Family : Type where
  | v4
  | v6
deriving DecidableEq, Repr

end EbpfToolbox.Net
