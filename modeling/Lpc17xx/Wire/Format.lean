import Mathlib.Data.UInt

/-!
# Frames as their standards describe them

Ethernet frames, IPv4 packets and UDP datagrams, taken apart by position, with numbers
in network order.  Nothing here knows how the code lays out its structures.
-/

namespace Lpc17xx.Wire

/-- The number that bytes in network order stand for. -/
def networkNat (bytes : List UInt8) : Nat :=
  bytes.foldl (fun value byte => value * 256 + byte.toNat) 0

/-- The field of `size` bytes at `start`. -/
def field (bytes : List UInt8) (start size : Nat) : Nat :=
  networkNat ((bytes.drop start).take size)

/-- The 16-bit words of a header.  A last byte on its own is filled up with zeros. -/
def networkWords : List UInt8 → List Nat
  | [] => []
  | [high] => [networkNat [high, 0]]
  | high :: low :: rest => networkNat [high, low] :: networkWords rest

end Lpc17xx.Wire
