import Lpc17xx.Arp.Requests

/-!
# Nodes with addresses of their own

The resolver of a node with its own hardware address in `ether_addr` and its own
`OUR_IP_ADDRESS`.  The addresses go into the packets and decide which packets are for the
node; what happens to its processes, requests and table is what happens here.
-/

namespace Lpc17xx.Arp

open Lpc17xx.Link
open Lpc17xx.Protocol
open Lpc17xx.Transition

/-- A node: its `ether_addr` and its `OUR_IP_ADDRESS`. -/
structure Node where
  etherAddr : List UInt8
  ipAddress : UInt32
  sized : etherAddr.length = 6

namespace Node

/-- The request that `resolve_address` transmits. -/
def requestPacket (node : Node) (ipAddress : UInt32) : ArpPacket where
  HTYPE := 1
  PTYPE := etherTypeIp
  HLEN := 6
  PLEN := 4
  OPER := 1
  SHA := node.etherAddr
  SPA := node.ipAddress
  THA := [0, 0, 0, 0, 0, 0]
  TPA := ipAddress

/-- The reply that `arp_rx_packet` builds for a request. -/
def arpReply (node : Node) (sha : List UInt8) (spa : UInt32) : ArpPacket where
  HTYPE := 1
  PTYPE := etherTypeIp
  HLEN := 6
  PLEN := 4
  OPER := 2
  SHA := node.etherAddr
  SPA := node.ipAddress
  THA := sha
  TPA := spa

/-- The next step of a process inside `resolve_address`. -/
def resolveStep (node : Node) (s : Resolver) (proc : Nat) : Option Resolver :=
  let cur := s.caller proc
  match cur.place with
  | .linked =>
      some { s.put proc { cur with place := .waiting } with
        sent := s.sent ++ [(broadcastAddr, node.requestPacket cur.ipAddress)] }
  | _ => s.resolveStep proc

/-- `arp_rx_packet`, on a packet in host order. -/
def rxPacket (node : Node) (s : Resolver) (packet : ArpPacket) : Resolver :=
  if packet.HTYPE = 1 then
    if packet.OPER = 1 then
      if packet.TPA = node.ipAddress then
        { s with sent := s.sent ++ [(packet.SHA, node.arpReply packet.SHA packet.SPA)] }
      else s
    else if packet.OPER = 2 then
      if packet.THA = node.etherAddr then (s.fulfil packet).wakeup else s
    else s
  else s

/-- One event. -/
def step (node : Node) : Step Resolver ArpEvent
  | s, .step proc => if s.Runs proc then node.resolveStep s proc else none
  | s, .rx packet => if s.masked = none then some (node.rxPacket s packet) else none
  | s, event => s.step event

/-- The node that this code is built for. -/
def thisNode : Node where
  etherAddr := Protocol.etherAddr
  ipAddress := ourIpAddress
  sized := rfl

theorem thisNode_step : thisNode.step = Resolver.step := by
  funext s event
  cases event with
  | step proc =>
      simp only [step, Resolver.step, resolveStep, Resolver.resolveStep]
      cases (s.caller proc).place <;> rfl
  | _ => rfl

/-- The packet as this code would have to receive it, to do what the node does. -/
def localize (node : Node) (packet : ArpPacket) : ArpPacket :=
  { packet with
    THA := if packet.THA = node.etherAddr then Protocol.etherAddr else []
    TPA := if packet.TPA = node.ipAddress then ourIpAddress else 0 }

def localizeEvent (node : Node) : ArpEvent → ArpEvent
  | .rx packet => .rx (node.localize packet)
  | event => event

section Step

variable {node : Node} {s after : Resolver}

/-- What is sent apart, the node does what this code does. -/
theorem rxPacket_localize (packet : ArpPacket) :
    node.rxPacket s packet =
      { s.rxPacket (node.localize packet) with sent := (node.rxPacket s packet).sent } := by
  have target : (node.localize packet).TPA = ourIpAddress ↔ packet.TPA = node.ipAddress := by
    simp only [localize]
    split
    · simp [*]
    · simp only [*, iff_false]
      decide
  have hardware : (node.localize packet).THA = Protocol.etherAddr ↔
      packet.THA = node.etherAddr := by
    simp only [localize]
    split
    · simp [*]
    · simp only [*, iff_false]
      decide
  have same : s.fulfil (node.localize packet) = s.fulfil packet := rfl
  have ethernet : (node.localize packet).HTYPE = packet.HTYPE := rfl
  have operation : (node.localize packet).OPER = packet.OPER := rfl
  unfold rxPacket Resolver.rxPacket
  simp only [target, hardware, same, ethernet, operation]
  split
  · split
    · split <;> rfl
    · split
      · split <;> rfl
      · rfl
  · rfl

theorem resolveStep_localize {proc : Nat} (taken : node.resolveStep s proc = some after) :
    ∃ here, s.resolveStep proc = some here ∧ after = { here with sent := after.sent } := by
  unfold resolveStep at taken
  simp only at taken
  split at taken
  · rename_i linked
    cases taken
    have here : s.resolveStep proc =
        some { s.put proc { s.caller proc with place := .waiting } with
          sent := s.sent ++ [(broadcastAddr, Arp.requestPacket (s.caller proc).ipAddress)] } := by
      simp only [Resolver.resolveStep, linked]
    exact ⟨_, here, rfl⟩
  · exact ⟨after, taken, rfl⟩

theorem step_localize {event : ArpEvent} (taken : node.step s event = some after) :
    ∃ here, Resolver.step s (node.localizeEvent event) = some here ∧
      after = { here with sent := after.sent } := by
  cases event with
  | step proc =>
      rcases Option.ite_none_right_eq_some.mp taken with ⟨runs, taken⟩
      rcases resolveStep_localize taken with ⟨here, moved, same⟩
      exact ⟨here, (if_pos runs).trans moved, same⟩
  | rx packet =>
      rcases Option.ite_none_right_eq_some.mp taken with ⟨unmasked, taken⟩
      cases taken
      exact ⟨_, if_pos unmasked, rxPacket_localize packet⟩
  | call proc ipAddress => exact ⟨after, taken, rfl⟩
  | unmask => exact ⟨after, taken, rfl⟩
  | tick => exact ⟨after, taken, rfl⟩

/-- Whatever does not depend on what was sent and is kept here is kept by every node. -/
theorem kept_of_step {P : Resolver → Prop}
    (ignoresSent : ∀ (s : Resolver) sent, P s → P { s with sent })
    (kept : ∀ (s : Resolver) event here, P s → Resolver.step s event = some here → P here)
    {event : ArpEvent} (before : P s) (taken : node.step s event = some after) : P after := by
  rcases step_localize taken with ⟨here, moved, same⟩
  rw [same]
  exact ignoresSent here _ (kept s _ here before moved)

theorem asking_of_step {event : ArpEvent} (asking : s.Asking)
    (taken : node.step s event = some after) : after.Asking :=
  kept_of_step (fun _ _ before => ⟨before.linked, before.asks, before.inTime⟩)
    (fun _ _ _ before moved => before.step moved) asking taken

theorem sound_of_step {event : ArpEvent} (sound : s.Sound)
    (taken : node.step s event = some after) : after.Sound :=
  kept_of_step (fun _ _ before => before) (fun _ _ _ before moved => before.step moved) sound taken

theorem asking_of_reachable {caller : Nat → Caller}
    (reached : Reachable node.step (Resolver.start caller) s) : s.Asking :=
  invariant_of_reachable (fun _ _ _ before taken => asking_of_step before taken)
    (Resolver.asking_start caller) reached

theorem sound_of_reachable {caller : Nat → Caller}
    (reached : Reachable node.step (Resolver.start caller) s) : s.Sound :=
  invariant_of_reachable (fun _ _ _ before taken => sound_of_step before taken)
    (Resolver.sound_start caller) reached

end Step

end Node

end Lpc17xx.Arp
