import Lpc17xx.Protocol.Stores
import Lpc17xx.Transition.Labelled

/-!
# The life of a received packet

What is to become of the packets that are injected, apart from memory: each is taken off the
queue once, is handed to one handler after the other down the protocols, and is freed, the
frame first and then the `packet_t`.  A history of calls in which a packet is popped that is
not queued, handled that is not in hand, or freed otherwise, is no history of such lives.
-/

namespace Lpc17xx.Packets

open Lpc17xx.Protocol
open Lpc17xx.Transition

/-- A packet as it was injected: where its `packet_t` and its frame are, how long the frame
is, and its first protocol. -/
structure Parcel where
  block : Nat
  frame : Nat
  len : Nat
  type : ProtocolType
  deriving DecidableEq

/-- What is done to packets: `packet_inject`, `list_pop`, the call of a handler, and
`free_mem`. -/
inductive PacketCall where
  | inject (parcel : Parcel)
  | pop (pkt : Nat)
  | handle (pkt : Nat) (protocol : ProtocolType)
  | free (ptr : Nat)
  deriving DecidableEq

/-- What `rx_task` has in hand, with the handlers called so far, the latest first. -/
inductive Hand where
  | nothing
  | whole (parcel : Parcel) (handlers : List ProtocolType)
  | frameFreed (parcel : Parcel) (handlers : List ProtocolType)
  deriving DecidableEq

/-- Where all packets are: in the queue, the latest first, in hand, or gone. -/
structure Custody where
  queued : List Parcel
  hand : Hand
  consumed : List (Parcel × List ProtocolType)
  deriving DecidableEq

/-- The handler that may be called after these: the packet's own at first, and then one that
the last one passes to. -/
def Expects (type : ProtocolType) : List ProtocolType → ProtocolType → Prop
  | [], protocol => protocol = type ∧ protocol ≠ .drop
  | last :: _, protocol => last.Passes protocol

instance (type : ProtocolType) :
    (handlers : List ProtocolType) → (protocol : ProtocolType) →
      Decidable (Expects type handlers protocol)
  | [], _ => inferInstanceAs (Decidable (_ ∧ _))
  | last :: _, protocol => inferInstanceAs (Decidable (last.Passes protocol))

namespace Custody

/-- No packets. -/
def empty : Custody where
  queued := []
  hand := .nothing
  consumed := []

/-- One call in the life of a packet.  A packet that no handler was called for was injected
to be dropped. -/
def follow : Step Custody PacketCall
  | c, .inject parcel => some { c with queued := parcel :: c.queued }
  | c, .pop pkt =>
      match c.hand, c.queued with
      | .nothing, parcel :: rest =>
          if parcel.block = pkt then some { c with queued := rest, hand := .whole parcel [] }
          else none
      | _, _ => none
  | c, .handle pkt protocol =>
      match c.hand with
      | .whole parcel handlers =>
          if parcel.block = pkt ∧ Expects parcel.type handlers protocol then
            some { c with hand := .whole parcel (protocol :: handlers) }
          else none
      | _ => none
  | c, .free ptr =>
      match c.hand with
      | .whole parcel handlers =>
          if ptr = parcel.frame ∧ (handlers = [] → parcel.type = .drop) then
            some { c with hand := .frameFreed parcel handlers }
          else none
      | .frameFreed parcel handlers =>
          if ptr = parcel.block then
            some { c with hand := .nothing, consumed := (parcel, handlers) :: c.consumed }
          else none
      | .nothing => none

/-- The packet in hand, if any. -/
def inHand (c : Custody) : List Parcel :=
  match c.hand with
  | .nothing => []
  | .whole parcel _ => [parcel]
  | .frameFreed parcel _ => [parcel]

/-- All packets, wherever they are. -/
def parcels (c : Custody) : List Parcel :=
  c.queued ++ (c.inHand ++ c.consumed.map Prod.fst)

end Custody

/-- The packet that a call injects. -/
def PacketCall.injected? : PacketCall → Option Parcel
  | .inject parcel => some parcel
  | _ => none

/-- The packet that a call pops. -/
def PacketCall.popped? : PacketCall → Option Nat
  | .pop pkt => some pkt
  | _ => none

/-- The pointer that a call frees. -/
def PacketCall.freed? : PacketCall → Option Nat
  | .free ptr => some ptr
  | _ => none

/-- Handlers that were called one after the other as each was expected. -/
def Descends (type : ProtocolType) : List ProtocolType → Prop
  | [] => True
  | protocol :: handlers => Expects type handlers protocol ∧ Descends type handlers

namespace Custody

/-- The packet in hand and those that are gone, with the handlers called for them. -/
def handled (c : Custody) : List (Parcel × List ProtocolType) :=
  match c.hand with
  | .nothing => c.consumed
  | .whole parcel handlers => (parcel, handlers) :: c.consumed
  | .frameFreed parcel handlers => (parcel, handlers) :: c.consumed

/-- The packets that are not in the queue any more. -/
def popped (c : Custody) : List Nat :=
  c.handled.map fun (parcel, _) => parcel.block

/-- What has been freed of them. -/
def freed (c : Custody) : List Nat :=
  let gone := c.consumed.flatMap fun (parcel, _) => [parcel.block, parcel.frame]
  match c.hand with
  | .frameFreed parcel _ => parcel.frame :: gone
  | _ => gone

end Custody

section Handlers

variable {type : ProtocolType} {handlers : List ProtocolType}

theorem handlersLeft_le (protocol : ProtocolType) : protocol.handlersLeft ≤ 3 := by
  cases protocol <;> decide

theorem handlersLeft_pos (protocol : ProtocolType) : 0 < protocol.handlersLeft := by
  cases protocol <;> decide

/-- The handlers called so far and those that the last one leaves are at most four. -/
theorem Descends.length_add_handlersLeft {last : ProtocolType}
    (descends : Descends type (last :: handlers)) :
    handlers.length + last.handlersLeft ≤ 3 := by
  induction handlers generalizing last with
  | nil =>
      rw [List.length_nil, Nat.zero_add]
      exact handlersLeft_le last
  | cons earlier handlers ih =>
      rcases descends with ⟨passes, before⟩
      have fewer := Protocol.Passes.handlersLeft passes
      have bound := ih before
      rw [List.length_cons]
      omega

/-- No packet is handled more than three times. -/
theorem Descends.length_le (descends : Descends type handlers) : handlers.length ≤ 3 := by
  cases handlers with
  | nil => exact Nat.zero_le 3
  | cons last handlers =>
      have bound := descends.length_add_handlersLeft
      have positive := handlersLeft_pos last
      rw [List.length_cons]
      omega

end Handlers

/-- What a call in the life of a packet does. -/
inductive Follows : Custody → PacketCall → Custody → Prop
  | inject (c : Custody) (parcel : Parcel) :
      Follows c (.inject parcel) { c with queued := parcel :: c.queued }
  | pop (parcel : Parcel) (rest : List Parcel) (consumed : List (Parcel × List ProtocolType)) :
      Follows ⟨parcel :: rest, .nothing, consumed⟩ (.pop parcel.block)
        ⟨rest, .whole parcel [], consumed⟩
  | handle (queued : List Parcel) (parcel : Parcel) (handlers : List ProtocolType)
      (consumed : List (Parcel × List ProtocolType)) (protocol : ProtocolType)
      (expected : Expects parcel.type handlers protocol) :
      Follows ⟨queued, .whole parcel handlers, consumed⟩ (.handle parcel.block protocol)
        ⟨queued, .whole parcel (protocol :: handlers), consumed⟩
  | freeFrame (queued : List Parcel) (parcel : Parcel) (handlers : List ProtocolType)
      (consumed : List (Parcel × List ProtocolType))
      (due : handlers = [] → parcel.type = .drop) :
      Follows ⟨queued, .whole parcel handlers, consumed⟩ (.free parcel.frame)
        ⟨queued, .frameFreed parcel handlers, consumed⟩
  | freePacket (queued : List Parcel) (parcel : Parcel) (handlers : List ProtocolType)
      (consumed : List (Parcel × List ProtocolType)) :
      Follows ⟨queued, .frameFreed parcel handlers, consumed⟩ (.free parcel.block)
        ⟨queued, .nothing, (parcel, handlers) :: consumed⟩

section Histories

variable {c c' : Custody} {call : PacketCall} {log : List PacketCall}

theorem follows_of_follow (followed : c.follow call = some c') : Follows c call c' := by
  rcases c with ⟨queued, hand, consumed⟩
  cases call with
  | inject parcel =>
      cases followed
      exact .inject _ parcel
  | pop pkt =>
      cases hand with
      | nothing =>
          cases queued with
          | nil => cases followed
          | cons parcel rest =>
              rcases Option.ite_none_right_eq_some.mp followed with ⟨here, moved⟩
              cases moved
              cases here
              exact .pop parcel rest consumed
      | whole parcel handlers => cases followed
      | frameFreed parcel handlers => cases followed
  | handle pkt protocol =>
      cases hand with
      | nothing => cases followed
      | whole parcel handlers =>
          rcases Option.ite_none_right_eq_some.mp followed with ⟨⟨here, expected⟩, moved⟩
          cases moved
          cases here
          exact .handle queued parcel handlers consumed protocol expected
      | frameFreed parcel handlers => cases followed
  | free ptr =>
      cases hand with
      | nothing => cases followed
      | whole parcel handlers =>
          rcases Option.ite_none_right_eq_some.mp followed with ⟨⟨here, due⟩, moved⟩
          cases moved
          cases here
          exact .freeFrame queued parcel handlers consumed due
      | frameFreed parcel handlers =>
          rcases Option.ite_none_right_eq_some.mp followed with ⟨here, moved⟩
          cases moved
          cases here
          exact .freePacket queued parcel handlers consumed

theorem Follows.follow (follows : Follows c call c') : c.follow call = some c' := by
  cases follows with
  | inject => rfl
  | pop => exact if_pos rfl
  | handle _ _ _ _ _ expected => exact if_pos ⟨rfl, expected⟩
  | freeFrame _ _ _ _ due => exact if_pos ⟨rfl, due⟩
  | freePacket => exact if_pos rfl

/-- A history goes on. -/
theorem Follows.run {start : Custody} (follows : Follows c call c')
    (lived : run Custody.follow start log = some c) :
    run Custody.follow start (log ++ [call]) = some c' := by
  refine run_append lived ?_
  rw [run_cons, follows.follow]
  rfl

/-- A count that every call keeps in step with its own contribution is, after any history,
in step with those of the whole history, by induction on it. -/
theorem perm_of_run {α : Type} {given : PacketCall → Option α} {held : Custody → List α}
    (kept : ∀ c call c', Follows c call c' →
      ([call].filterMap given ++ held c).Perm (held c'))
    (lived : run Custody.follow c log = some c') :
    (log.filterMap given ++ held c).Perm (held c') := by
  induction log generalizing c with
  | nil =>
      cases lived
      exact List.Perm.refl _
  | cons call log ih =>
      rcases Option.bind_eq_some_iff.mp lived with ⟨middle, followed, rest⟩
      have first := kept c call middle (follows_of_follow followed)
      have exchanged : ([call].filterMap given ++ log.filterMap given ++ held c).Perm
          (log.filterMap given ++ [call].filterMap given ++ held c) :=
        List.perm_append_comm.append_right _
      rw [List.append_assoc (log.filterMap given)] at exchanged
      rw [← List.singleton_append, List.filterMap_append]
      exact exchanged.trans ((first.append_left _).trans (ih rest))

/-- The packets that were injected are in the queue, in hand or gone, each once. -/
theorem perm_injected (lived : run Custody.follow c log = some c') :
    (log.filterMap PacketCall.injected? ++ c.parcels).Perm c'.parcels := by
  refine perm_of_run (fun c call c' follows => ?_) lived
  cases follows with
  | inject => exact List.Perm.refl _
  | pop => exact List.perm_middle.symm
  | handle => exact List.Perm.refl _
  | freeFrame => exact List.Perm.refl _
  | freePacket => exact List.Perm.refl _

/-- The packets that were popped are in hand or gone, each once. -/
theorem perm_popped (lived : run Custody.follow c log = some c') :
    (log.filterMap PacketCall.popped? ++ c.popped).Perm c'.popped := by
  refine perm_of_run (fun c call c' follows => ?_) lived
  cases follows with
  | inject => exact List.Perm.refl _
  | pop => exact List.Perm.refl _
  | handle => exact List.Perm.refl _
  | freeFrame => exact List.Perm.refl _
  | freePacket => exact List.Perm.refl _

/-- The pointers that were freed are the frame and the block of each packet that is gone. -/
theorem perm_freed (lived : run Custody.follow c log = some c') :
    (log.filterMap PacketCall.freed? ++ c.freed).Perm c'.freed := by
  refine perm_of_run (fun c call c' follows => ?_) lived
  cases follows with
  | inject => exact List.Perm.refl _
  | pop => exact List.Perm.refl _
  | handle => exact List.Perm.refl _
  | freeFrame => exact List.Perm.refl _
  | freePacket => exact List.Perm.refl _

/-- The handlers of every packet are called in the order of the protocols. -/
theorem descends_of_follow (before : ∀ entry ∈ c.handled, Descends entry.1.type entry.2)
    (followed : c.follow call = some c') :
    ∀ entry ∈ c'.handled, Descends entry.1.type entry.2 := by
  cases follows_of_follow followed with
  | inject => exact before
  | pop => exact List.forall_mem_cons.mpr ⟨trivial, before⟩
  | handle queued parcel handlers consumed protocol expected =>
      rcases List.forall_mem_cons.mp before with ⟨first, others⟩
      exact List.forall_mem_cons.mpr ⟨⟨expected, first⟩, others⟩
  | freeFrame => exact before
  | freePacket => exact before

theorem descends_of_run (before : ∀ entry ∈ c.handled, Descends entry.1.type entry.2)
    (lived : run Custody.follow c log = some c') :
    ∀ entry ∈ c'.handled, Descends entry.1.type entry.2 := by
  induction log generalizing c with
  | nil =>
      cases lived
      exact before
  | cons call log ih =>
      rcases Option.bind_eq_some_iff.mp lived with ⟨middle, followed, rest⟩
      exact ih (descends_of_follow before followed) rest

end Histories

end Lpc17xx.Packets
