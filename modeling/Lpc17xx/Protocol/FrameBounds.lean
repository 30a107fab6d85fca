import Lpc17xx.Protocol.Bounds

/-!
# Which frames the receive chain stays inside of

The inner loop of `rx_task` runs one handler after the other.  A frame is well
sized when it holds every header that the bytes before it announce; these are
the frames for which no handler leaves the frame.
-/

namespace Lpc17xx.Protocol

open Lpc17xx.Memory
open Lpc17xx.Tcp

section Loop

variable {s : Stack}

/-- The number of handlers a packet can still pass. -/
def ProtocolType.handlersLeft : ProtocolType → Nat
  | .ethernet => 3
  | .ipv4 => 2
  | .udp | .tcp | .arp | .drop => 1

theorem handle_ethernet (layer : s.pkt.handler = .ethernet) :
    s.handle = after ethernetRxPkt s := by
  rw [Stack.handle, layer]
  rfl

theorem handle_arp (layer : s.pkt.handler = .arp) : s.handle = after arpRxPacket s := by
  rw [Stack.handle, layer]
  rfl

theorem handle_ipv4 (layer : s.pkt.handler = .ipv4) : s.handle = after ipv4RxPacket s := by
  rw [Stack.handle, layer]
  rfl

theorem handle_udp (layer : s.pkt.handler = .udp) : s.handle = after udpRxPacket s := by
  rw [Stack.handle, layer]
  rfl

theorem handle_tcp (layer : s.pkt.handler = .tcp) : s.handle = after tcpRxPacket s := by
  rw [Stack.handle, layer]
  rfl

/-- A handler drops the packet or passes it down. -/
theorem handlersLeft_handle :
    s.handle.pkt.handler = .drop ∨
      s.handle.pkt.handler.handlersLeft < s.pkt.handler.handlersLeft := by
  cases layer : s.pkt.handler with
  | ethernet =>
      rw [handle_ethernet layer, ethernet_handler]
      split
      · exact .inr (by decide)
      · split
        · exact .inr (by decide)
        · exact .inl rfl
  | ipv4 =>
      rw [handle_ipv4 layer, ipv4_handler]
      split
      · exact .inl rfl
      · split
        · exact .inl rfl
        · split
          · exact .inr (by decide)
          · split
            · exact .inr (by decide)
            · exact .inl rfl
  | udp => exact .inl (by rw [handle_udp layer, udp_handler])
  | tcp => exact .inl (by rw [handle_tcp layer, tcp_handler])
  | arp => exact .inl (by rw [handle_arp layer, arp_handler])
  | drop =>
      rw [Stack.handle, layer]
      exact .inl rfl

/-- More rounds than handlers left add nothing, by induction on the rounds. -/
theorem rxLoop_add (fuel extra : Nat) (s : Stack) (enough : s.pkt.handler.handlersLeft ≤ fuel) :
    rxLoop (fuel + extra) s = rxLoop fuel s := by
  induction fuel generalizing s with
  | zero =>
      cases layer : s.pkt.handler with
      | _ => simp [layer, ProtocolType.handlersLeft] at enough
  | succ fuel ih =>
      rw [Nat.succ_add, rxLoop, rxLoop]
      split
      · rfl
      · rename_i goesOn
        rcases handlersLeft_handle (s := s) with dropped | fewer
        · exact absurd (.inl dropped) goesOn
        · rw [ih s.handle (by omega)]

/-- The loop of `rx_task` ends by itself within its three rounds. -/
theorem rxTask_ends (tables : Tables) (memory : Bytes) (frameLen : UInt32) (stale : Ipv4PktInfo)
    (extra : Nat) :
    rxLoop (3 + extra) (inject tables memory frameLen stale) =
      rxTask tables memory frameLen stale :=
  rxLoop_add 3 extra _ (Nat.le_refl _)

/-- Every state that the loop goes through keeps the packet in the frame. -/
def StaysInFrame (len : Nat) (states : List Stack) : Prop :=
  ∀ s ∈ states, InFrame len s.pkt

theorem rxLoop_last {fuel : Nat} (dropped : s.handle.pkt.handler = .drop) :
    rxLoop (fuel + 1) s = [s.handle] := by
  rw [rxLoop, if_pos (.inl dropped)]

theorem rxLoop_next {fuel : Nat} (passed : s.handle.pkt.handler ≠ .drop)
    (running : s.handle.stopped = false) :
    rxLoop (fuel + 1) s = s.handle :: rxLoop fuel s.handle := by
  rw [rxLoop, if_neg (by simp [passed, running])]

theorem staysInFrame_last {len fuel : Nat} (dropped : s.handle.pkt.handler = .drop) :
    StaysInFrame len (rxLoop (fuel + 1) s) ↔ InFrame len s.handle.pkt := by
  rw [rxLoop_last dropped]
  simp [StaysInFrame]

theorem staysInFrame_next {len fuel : Nat} (passed : s.handle.pkt.handler ≠ .drop)
    (running : s.handle.stopped = false) :
    StaysInFrame len (rxLoop (fuel + 1) s) ↔
      InFrame len s.handle.pkt ∧ StaysInFrame len (rxLoop fuel s.handle) := by
  rw [rxLoop_next passed running]
  simp [StaysInFrame]

end Loop

section WellSized

/-- A TCP header at `header` ends in the frame, with its options. -/
def TcpFits (memory : Bytes) (len header : Nat) : Prop :=
  header + 20 ≤ len ∧ header + (dataOffsetBytes (memory (header + 12))).toNat ≤ len

/-- An IPv4 header at `header` ends in the frame, with its options, and so does
the header of the transport that it announces.  Where the header length is forged
to less than 20, the two overlap. -/
def Ipv4Fits (memory : Bytes) (len header : Nat) : Prop :=
  header + 20 ≤ len ∧ header + (ihlBytes (memory header)).toNat ≤ len ∧
    (memory (header + 8) ≠ 0 → big32 memory (header + 16) = ourIpAddress →
      (memory (header + 9) = ipProtoTcp →
        TcpFits (ip4Swapped memory header) len (header + (ihlBytes (memory header)).toNat)) ∧
      (memory (header + 9) = ipProtoUdp →
        header + (ihlBytes (memory header)).toNat + 8 ≤ len))

/-- The frame holds the headers that it announces: 14 bytes of Ethernet header,
behind it a whole ARP packet or an IPv4 header that fits. -/
def WellSized (memory : Bytes) (len : Nat) : Prop :=
  14 ≤ len ∧ (big16 memory 12 = etherTypeArp → 14 + 28 ≤ len) ∧
    (big16 memory 12 = etherTypeIp → Ipv4Fits memory len 14)

theorem swap16_congr {memory memory' : Bytes} {base address : Nat} (above : base ≤ address)
    (same : ∀ i, base ≤ i → memory' i = memory i) :
    ∀ i, base ≤ i → swap16 memory' address i = swap16 memory address i := by
  intro i bound
  have word : load16 memory' address = load16 memory address :=
    load16_congr fun j _ => same _ (by omega)
  simp only [swap16, store16, word, same i bound]

theorem swap32_congr {memory memory' : Bytes} {base address : Nat} (above : base ≤ address)
    (same : ∀ i, base ≤ i → memory' i = memory i) :
    ∀ i, base ≤ i → swap32 memory' address i = swap32 memory address i := by
  intro i bound
  have word : load32 memory' address = load32 memory address :=
    load32_congr fun j _ => same _ (by omega)
  simp only [swap32, store32, word, same i bound]

theorem ip4Swapped_congr {memory memory' : Bytes} {iphdr : Nat}
    (same : ∀ i, iphdr ≤ i → memory' i = memory i) :
    ∀ i, iphdr ≤ i → ip4Swapped memory' iphdr i = ip4Swapped memory iphdr i := by
  apply swap32_congr (by omega)
  apply swap32_congr (by omega)
  apply swap16_congr (by omega)
  exact swap16_congr (by omega) same

/-- What lies in front of an IPv4 header has no part in it. -/
theorem ipv4Fits_congr {memory memory' : Bytes} {len header : Nat}
    (same : ∀ i, header ≤ i → memory' i = memory i) :
    Ipv4Fits memory' len header ↔ Ipv4Fits memory len header := by
  have address : big32 memory' (header + 16) = big32 memory (header + 16) :=
    big32_congr fun i _ => same _ (by omega)
  have swapped := ip4Swapped_congr same
  simp only [Ipv4Fits, TcpFits, address, same header (Nat.le_refl _), same (header + 8) (by omega),
    same (header + 9) (by omega)]
  rw [swapped _ (by omega)]

end WellSized

section Chain

variable {s : Stack} {len fuel : Nat}

theorem staysInFrame_arp (layer : s.pkt.handler = .arp) (inside : InFrame len s.pkt) :
    StaysInFrame len (rxLoop (fuel + 1) s) ↔ s.pkt.curData + 28 ≤ len := by
  have handled := handle_arp layer
  rw [staysInFrame_last (by rw [handled, arp_handler]), handled]
  exact arp_inFrame_iff s inside

theorem staysInFrame_udp (layer : s.pkt.handler = .udp) (inside : InFrame len s.pkt) :
    StaysInFrame len (rxLoop (fuel + 1) s) ↔ s.pkt.curData + 8 ≤ len := by
  have handled := handle_udp layer
  rw [staysInFrame_last (by rw [handled, udp_handler]), handled]
  exact udp_inFrame_iff s inside

theorem staysInFrame_tcp (layer : s.pkt.handler = .tcp) (inside : InFrame len s.pkt) :
    StaysInFrame len (rxLoop (fuel + 1) s) ↔ TcpFits s.pkt.memory len s.pkt.curData := by
  have handled := handle_tcp layer
  rw [staysInFrame_last (by rw [handled, tcp_handler]), handled]
  exact tcp_inFrame_iff s inside

/-- The cases are those of `ipv4_rx_packet`. -/
theorem staysInFrame_ipv4 (layer : s.pkt.handler = .ipv4) (running : s.stopped = false)
    (inside : InFrame len s.pkt) :
    StaysInFrame len (rxLoop (fuel + 2) s) ↔ Ipv4Fits s.pkt.memory len s.pkt.curData := by
  have handled := handle_ipv4 layer
  have still : s.handle.stopped = false := by rw [handled, ipv4_stopped, running]
  have handler := ipv4_handler s
  have header := ipv4_inFrame_iff s inside
  have ends (dropped : (after ipv4RxPacket s).pkt.handler = .drop) :
      StaysInFrame len (rxLoop (fuel + 2) s) ↔
        s.pkt.curData + 20 ≤ len ∧ s.pkt.curData + (headerLen s).toNat ≤ len := by
    rw [staysInFrame_last (by rw [handled, dropped]), handled, header]
  by_cases ttl : s.pkt.memory (s.pkt.curData + 8) = 0
  · rw [if_pos ttl] at handler
    rw [ends handler]
    simp [Ipv4Fits, ttl]
  · rw [if_neg ttl] at handler
    by_cases address : big32 s.pkt.memory (s.pkt.curData + 16) = ourIpAddress
    · rw [if_neg (not_not_intro address)] at handler
      by_cases tcp : s.pkt.memory (s.pkt.curData + 9) = ipProtoTcp
      · rw [if_pos tcp] at handler
        have other : ipProtoTcp ≠ ipProtoUdp := by decide
        rw [staysInFrame_next (by rw [handled, handler]; decide) still, handled,
          and_congr_right (staysInFrame_tcp handler), ipv4_memory, ipv4_curData, header]
        simp [Ipv4Fits, ttl, address, tcp, other, and_assoc]
      · rw [if_neg tcp] at handler
        by_cases udp : s.pkt.memory (s.pkt.curData + 9) = ipProtoUdp
        · rw [if_pos udp] at handler
          have other : ipProtoUdp ≠ ipProtoTcp := by decide
          rw [staysInFrame_next (by rw [handled, handler]; decide) still, handled,
            and_congr_right (staysInFrame_udp handler), ipv4_curData, header]
          simp [Ipv4Fits, ttl, address, udp, other, and_assoc]
        · rw [if_neg udp] at handler
          rw [ends handler]
          simp [Ipv4Fits, tcp, udp]
    · rw [if_pos address] at handler
      rw [ends handler]
      simp [Ipv4Fits, address]

theorem staysInFrame_ethernet (layer : s.pkt.handler = .ethernet) (running : s.stopped = false)
    (first : s.pkt.curData = 0) (inside : InFrame len s.pkt) :
    StaysInFrame len (rxLoop (fuel + 3) s) ↔ WellSized s.pkt.memory len := by
  have handled := handle_ethernet layer
  have still : s.handle.stopped = false := by rw [handled, ethernet_stopped, running]
  have handler := ethernet_handler s
  have header := ethernet_inFrame_iff s inside
  rw [first, Nat.zero_add] at handler header
  have cursor : (after ethernetRxPkt s).pkt.curData = 14 := by rw [ethernet_curData, first]
  have behind (i : Nat) (bound : 14 ≤ i) :
      (after ethernetRxPkt s).pkt.memory i = s.pkt.memory i := by
    rw [ethernet_memory, first]
    exact swap16_of_outside (.inr bound)
  by_cases arp : big16 s.pkt.memory 12 = etherTypeArp
  · rw [if_pos arp] at handler
    have other : etherTypeArp ≠ etherTypeIp := by decide
    rw [staysInFrame_next (by rw [handled, handler]; decide) still, handled,
      and_congr_right (staysInFrame_arp handler), cursor, header]
    simp [WellSized, arp, other]
  · rw [if_neg arp] at handler
    by_cases ip : big16 s.pkt.memory 12 = etherTypeIp
    · rw [if_pos ip] at handler
      have other : etherTypeIp ≠ etherTypeArp := by decide
      rw [staysInFrame_next (by rw [handled, handler]; decide) still, handled,
        and_congr_right (staysInFrame_ipv4 handler (by rw [← handled, still])), cursor, header,
        ipv4Fits_congr behind]
      simp [WellSized, ip, other]
    · rw [if_neg ip] at handler
      rw [staysInFrame_last (by rw [handled, handler]), handled, header]
      simp [WellSized, arp, ip]

end Chain

/-- A received frame, which one heap block holds. -/
structure Frame where
  bytes : List UInt8
  nonempty : bytes ≠ []
  fits : bytes.length ≤ memHeapSize

namespace Frame

variable (frame : Frame)

/-- The frame in memory, with `heap` behind it. -/
def memory (heap : Bytes) : Bytes := fun i => frame.bytes.getD i (heap i)

/-- `current_frame_len`. -/
def length : UInt32 := .ofNat frame.bytes.length

theorem toNat_length : frame.length.toNat = frame.bytes.length := by
  have fits := frame.fits
  unfold memHeapSize at fits
  exact UInt32.toNat_ofNat_of_lt' (by rw [UInt32.size]; omega)

/-- Before the first handler, the cursor is at the start of the frame. -/
theorem inFrame_inject (tables : Tables) (heap : Bytes) (stale : Ipv4PktInfo) :
    InFrame frame.bytes.length (inject tables (frame.memory heap) frame.length stale).pkt := by
  refine ⟨fun _ member => ?_, Nat.zero_le _, frame.toNat_length⟩
  nomatch member

end Frame

/-- Every frame, whatever the heap, the tables and the stale part of the packet
hold: all handlers stay inside of it exactly when it is well sized. -/
theorem rxTask_inFrame_iff (tables : Tables) (frame : Frame) (heap : Bytes)
    (stale : Ipv4PktInfo) :
    (∀ s ∈ rxTask tables (frame.memory heap) frame.length stale,
      InFrame frame.bytes.length s.pkt) ↔
      WellSized (frame.memory heap) frame.bytes.length :=
  staysInFrame_ethernet rfl rfl rfl (frame.inFrame_inject tables heap stale)

/-- The shortest frame: one byte. -/
def oneByteFrame : Frame where
  bytes := [0]
  nonempty := List.cons_ne_nil _ _
  fits := by decide

/-- A protocol state without listeners, TCBs and requests. -/
def emptyTables : Tables where
  udpRxRequests := []
  tcbHead := []
  arpTableHead := []
  arpPendingRequests := []
  arpFinished := []
  arpSent := []
  tcpSent := []

/-- `ethernet_rx_pkt` takes 14 bytes off a frame of one: `cur_data_length`
wraps, and the cursor stands 13 bytes behind the frame. -/
theorem rxTask_not_inFrame_oneByte :
    ¬ ∀ s ∈ rxTask emptyTables (oneByteFrame.memory fun _ => 0) oneByteFrame.length ⟨0, 0⟩,
      InFrame oneByteFrame.bytes.length s.pkt := by
  intro inFrame
  have first := inFrame _ (.head _)
  exact absurd first.curData_le (by decide)

end Lpc17xx.Protocol
