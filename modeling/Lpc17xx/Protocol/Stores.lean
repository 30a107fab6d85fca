import Lpc17xx.Protocol.Delivery

/-!
# What the receive handlers write

A handler writes to memory where it swaps the fields of its header, and nowhere else; and it
drops the packet or hands it on: from Ethernet to ARP or IPv4, from IPv4 to UDP or TCP.
-/

namespace Lpc17xx.Protocol

open Lpc17xx.Memory
open Lpc17xx.Tcp

/-- The bytes from the cursor on among which are all that the handler swaps. -/
def ProtocolType.swappedSize : ProtocolType → Nat
  | .ethernet => 14
  | .ipv4 => 20
  | .udp => 6
  | .tcp => 20
  | .arp => 28
  | .drop => 0

/-- The protocols that a handler can hand its packet on to. -/
def ProtocolType.Passes : ProtocolType → ProtocolType → Prop
  | .ethernet, next => next = .arp ∨ next = .ipv4
  | .ipv4, next => next = .udp ∨ next = .tcp
  | _, _ => False

instance : (protocol next : ProtocolType) → Decidable (protocol.Passes next)
  | .ethernet, _ => inferInstanceAs (Decidable (_ ∨ _))
  | .ipv4, _ => inferInstanceAs (Decidable (_ ∨ _))
  | .udp, _ => inferInstanceAs (Decidable False)
  | .tcp, _ => inferInstanceAs (Decidable False)
  | .arp, _ => inferInstanceAs (Decidable False)
  | .drop, _ => inferInstanceAs (Decidable False)

section Handlers

variable {s : Stack}

/-- A handler drops the packet or hands it on. -/
theorem passes_handle :
    s.handle.pkt.handler = .drop ∨ s.pkt.handler.Passes s.handle.pkt.handler := by
  cases layer : s.pkt.handler with
  | ethernet =>
      rw [handle_ethernet layer, ethernet_handler]
      split
      · exact .inr (.inl rfl)
      · split
        · exact .inr (.inr rfl)
        · exact .inl rfl
  | ipv4 =>
      rw [handle_ipv4 layer, ipv4_handler]
      split
      · exact .inl rfl
      · split
        · exact .inl rfl
        · split
          · exact .inr (.inr rfl)
          · split
            · exact .inr (.inl rfl)
            · exact .inl rfl
  | udp => exact .inl (by rw [handle_udp layer, udp_handler])
  | tcp => exact .inl (by rw [handle_tcp layer, tcp_handler])
  | arp => exact .inl (by rw [handle_arp layer, arp_handler])
  | drop =>
      rw [Stack.handle, layer]
      exact .inl rfl

theorem Passes.handlersLeft {protocol next : ProtocolType} (passes : protocol.Passes next) :
    next.handlersLeft < protocol.handlersLeft := by
  cases protocol with
  | ethernet => rcases passes with rfl | rfl <;> decide
  | ipv4 => rcases passes with rfl | rfl <;> decide
  | udp => exact passes.elim
  | tcp => exact passes.elim
  | arp => exact passes.elim
  | drop => exact passes.elim

end Handlers

section Memory

variable (s : Stack) {other : Nat}

theorem keeps_memory_arpFulfil (packet : Nat) (requests : List ArpPendingRequest) :
    Keeps (byteOf other) (arpFulfil packet requests) := by
  induction requests with
  | nil => exact fun _ => rfl
  | cons arpReq requests ih =>
      refine .bind (fun _ => rfl) fun _ => .ite ?_ (.bind ih fun _ _ => rfl)
      exact fun _ => rfl

/-- Once the packet is swapped, ARP writes nothing to memory. -/
theorem keeps_memory_arpRest (packet : Nat) : Keeps (byteOf other) (arpRest packet) := by
  have replied : Keeps (byteOf other) (arpReplied packet) := by
    refine .bind (fun _ => rfl) fun _ => .ite ?_ fun _ => rfl
    exact .bind (fun _ => rfl) fun _ => .bind (keeps_memory_arpFulfil packet _) fun _ _ => rfl
  refine .bind (fun _ => rfl) fun _ => .ite ?_ fun _ => rfl
  refine .bind (fun _ => rfl) fun _ => .ite ?_ (.ite replied fun _ => rfl)
  exact .bind (fun _ => rfl) fun _ => .ite (fun _ => rfl) fun _ => rfl

theorem arp_memory_outside (outside : other < s.pkt.curData ∨ s.pkt.curData + 28 ≤ other) :
    (after arpRxPacket s).pkt.memory other = s.pkt.memory other := by
  refine (keeps_memory_arpRest s.pkt.curData _).trans ?_
  change swap32 (swap32 (swap16 (swap16 (swap16 s.pkt.memory s.pkt.curData)
    (s.pkt.curData + 2)) (s.pkt.curData + 6)) (s.pkt.curData + 14)) (s.pkt.curData + 24) other = _
  simp (disch := omega) only [swap16_of_outside, swap32_of_outside]

theorem udp_memory_outside (outside : other < s.pkt.curData ∨ s.pkt.curData + 6 ≤ other) :
    (after udpRxPacket s).pkt.memory other = s.pkt.memory other := by
  rw [udp_eq]
  refine (@keeps_udpRest _ (byteOf other) (fun _ _ _ => rfl) (fun _ _ => rfl) _ _ _ _).trans ?_
  change swap16 (swap16 s.pkt.memory (s.pkt.curData + 2)) (s.pkt.curData + 4) other = _
  simp (disch := omega) only [swap16_of_outside]

theorem tcp_memory_outside (outside : other < s.pkt.curData ∨ s.pkt.curData + 20 ≤ other) :
    (after tcpRxPacket s).pkt.memory other = s.pkt.memory other := by
  have rest (header data : Nat) (dataLen : UInt32) :
      Keeps (byteOf other) (tcpRest header data dataLen) :=
    .bind (fun _ => rfl) fun incoming =>
      @keeps_tcpDeliver _ (fun pkt => pkt.memory other) (fun _ _ _ => rfl) incoming data dataLen
  rw [tcp_eq]
  refine (rest _ _ _ _).trans ?_
  change (tcpSwapped s).pkt.memory other = _
  rw [tcpSwapped_memory]
  simp (disch := omega) only [tcpSwappedMemory, swap16_of_outside, swap32_of_outside]

/-- No handler writes in front of its header or behind the part of it that it swaps. -/
theorem handle_memory_outside
    (outside : other < s.pkt.curData ∨ s.pkt.curData + s.pkt.handler.swappedSize ≤ other) :
    s.handle.pkt.memory other = s.pkt.memory other := by
  cases layer : s.pkt.handler with
  | ethernet =>
      rw [layer, ProtocolType.swappedSize] at outside
      rw [handle_ethernet layer, ethernet_memory]
      exact swap16_of_outside (by omega)
  | ipv4 =>
      rw [layer, ProtocolType.swappedSize] at outside
      rw [handle_ipv4 layer, ipv4_memory]
      exact ip4Swapped_of_outside (by omega)
  | udp =>
      rw [layer, ProtocolType.swappedSize] at outside
      rw [handle_udp layer]
      exact udp_memory_outside s outside
  | tcp =>
      rw [layer, ProtocolType.swappedSize] at outside
      rw [handle_tcp layer]
      exact tcp_memory_outside s outside
  | arp =>
      rw [layer, ProtocolType.swappedSize] at outside
      rw [handle_arp layer]
      exact arp_memory_outside s outside
  | drop =>
      rw [Stack.handle, layer]
      rfl

end Memory

end Lpc17xx.Protocol
