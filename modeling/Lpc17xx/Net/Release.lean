import Lpc17xx.Heap.Allocator
import Lpc17xx.Net.Losses

/-!
# What received frames leave on the heap

When all that was received is handled and all that was to be transmitted is, the
live blocks are those from before and one for each new entry of the ARP table,
exactly if nothing on the way there has lost one.
-/

namespace Lpc17xx.Net

open Lpc17xx.Arp
open Lpc17xx.Heap (SoundHeap linkedHeap)
open Lpc17xx.Heap.HeapState (linkedPlace)
open Lpc17xx.Memory
open Lpc17xx.Protocol
open Lpc17xx.Transition

namespace State

variable {H B : Type}

/-- Everything received is handled, and everything to be transmitted is
transmitted. -/
structure Drained (s : State H B) : Prop where
  currentFrame : s.currentFrame = none
  pktRxQ : s.pktRxQ = []
  rxPkt : s.rxPkt = none
  ip4TxQueue : s.ip4TxQueue = []
  txPkt : s.txPkt = none
  etherTxQueue : s.etherTxQueue = []
  txdPkt : s.txdPkt = none

instance (s : State H B) : Decidable s.Drained :=
  decidable_of_iff
    (s.currentFrame.isNone ∧ s.pktRxQ.isEmpty ∧ s.rxPkt.isNone ∧ s.ip4TxQueue.isEmpty ∧
      s.txPkt.isNone ∧ s.etherTxQueue.isEmpty ∧ s.txdPkt.isNone)
    ⟨fun ⟨currentFrame, pktRxQ, rxPkt, ip4TxQueue, txPkt, etherTxQueue, txdPkt⟩ =>
      ⟨Option.isNone_iff_eq_none.mp currentFrame, List.isEmpty_iff.mp pktRxQ,
        Option.isNone_iff_eq_none.mp rxPkt, List.isEmpty_iff.mp ip4TxQueue,
        Option.isNone_iff_eq_none.mp txPkt, List.isEmpty_iff.mp etherTxQueue,
        Option.isNone_iff_eq_none.mp txdPkt⟩,
      fun ⟨currentFrame, pktRxQ, rxPkt, ip4TxQueue, txPkt, etherTxQueue, txdPkt⟩ =>
      ⟨Option.isNone_iff_eq_none.mpr currentFrame, List.isEmpty_iff.mpr pktRxQ,
        Option.isNone_iff_eq_none.mpr rxPkt, List.isEmpty_iff.mpr ip4TxQueue,
        Option.isNone_iff_eq_none.mpr txPkt, List.isEmpty_iff.mpr etherTxQueue,
        Option.isNone_iff_eq_none.mpr txdPkt⟩⟩

/-- The entries of the ARP table have a block each. -/
def Matched (s : State H B) : Prop :=
  s.arpTable.length = s.tables.arpTableHead.length

theorem Drained.inFlight {s : State H B} (drained : s.Drained) : s.inFlight = 0 := by
  simp [State.inFlight, drained.currentFrame, drained.pktRxQ, drained.rxPkt, drained.ip4TxQueue,
    drained.txPkt, drained.etherTxQueue, drained.txdPkt]

variable [DecidableEq B] (mem : Allocator H B)

/-- Every block that the state refers to is live, and nothing else refers to it. -/
def Accounted (s : State H B) : Prop :=
  s.owned ≤ s.live mem

/-- The live blocks but for the wait nodes. -/
def standing (s : State H B) : Multiset B :=
  s.live mem - s.waitNodes

/-- The live blocks that are neither wait nodes nor those of a packet on its way. -/
def resident (s : State H B) : Multiset B :=
  s.standing mem - s.inFlight

/-- What is live in the end is what was before and an entry of the ARP table for each
request answered, but for what everybody else has allocated and freed. -/
def Releases (start last : State H B) (answers : Nat) : Prop :=
  ∃ entries : List B, last.arpTable = entries ++ start.arpTable ∧ entries.length = answers ∧
    last.standing mem + start.others = start.resident mem + entries + last.others

variable {mem} {s middle after : State H B}

theorem resident_of_holds {rest : Multiset B} (holds : Holds (live mem) owned s rest) :
    s.resident mem = s.arpTable + s.others + rest := by
  have split : s.live mem = s.arpTable + s.others + rest + s.inFlight + s.waitNodes := by
    rw [holds, owned]
    abel
  rw [resident, standing, split, add_tsub_cancel_right, add_tsub_cancel_right]

theorem Drained.standing (drained : s.Drained) : s.standing mem = s.resident mem := by
  rw [resident, drained.inFlight, tsub_zero]

/-- Two parts of a run. -/
theorem Accounts.append {first second : Prop} {answers more : Nat}
    (early : Accounts mem s middle first answers) (late : Accounts mem middle after second more) :
    Accounts mem s after (first ∧ second) (answers + more) := by
  rcases early with ⟨lost, entries, takes, losses, count⟩
  rcases late with ⟨lost', entries', takes', losses', count'⟩
  refine ⟨lost' + lost, entries' ++ entries, ⟨?_, ?_⟩, ?_, ?_⟩
  · apply takes.passes.trans
    have framed := takes'.passes.frame lost
    rw [zero_add] at framed
    exact framed
  · rw [takes'.arpTable, takes.arpTable, List.append_assoc]
  · rw [← Multiset.card_eq_zero, Multiset.card_add, Nat.add_eq_zero_iff, Multiset.card_eq_zero,
      Multiset.card_eq_zero, losses, losses', and_comm]
  · rw [List.length_append, count, count', add_comm]

/-- What a whole run loses and answers, by induction on its events. -/
theorem accounts_run {start last : State H B} {events : List (NetEvent B)}
    (executed : run (step mem) start events = some last) :
    Accounts mem start last (Guarded (step mem) NoArpLoss start events)
      (tally (step mem) answered start events) := by
  induction events generalizing start with
  | nil =>
      cases executed
      exact (Moves.refl 0).quiet.accounts trivial
  | cons event events ih =>
      rcases Option.bind_eq_some_iff.mp executed with ⟨middle, taken, rest⟩
      obtain ⟨lost, entries, takes, losses, count⟩ :=
        (accounts_step taken).1.append (ih rest)
      refine ⟨lost, entries, takes, losses.trans ?_, ?_⟩
      · constructor
        · rintro ⟨quiet, guarded⟩ target same
          cases taken.symm.trans same
          exact ⟨quiet, guarded⟩
        · intro guarded
          exact guarded middle taken
      · rw [count, tally_cons taken]

theorem Matched.run {start last : State H B} (matched : start.Matched)
    (reached : Reachable (step mem) start last) : last.Matched := by
  apply invariant_of_reachable _ matched reached
  intro s event after before taken
  rcases accounts_step taken with ⟨⟨_, entries, takes, _, count⟩, grown⟩
  rw [Matched, takes.arpTable, List.length_append, count, grown, before]

/-- Every reachable state is accounted for. -/
theorem Accounted.run {start last : State H B} (accounted : start.Accounted mem)
    (reached : Reachable (step mem) start last) : last.Accounted mem := by
  rcases reached with ⟨events, executed⟩
  rcases Multiset.le_iff_exists_add.mp accounted with ⟨rest, holds⟩
  rcases accounts_run executed with ⟨lost, entries, takes, _⟩
  apply Multiset.le_iff_exists_add.mpr
  refine ⟨lost + rest, takes.passes rest ?_⟩
  rw [zero_add]
  exact holds

/-- What is live in the end, with what was lost on the way. -/
theorem balance_of_takes {start last : State H B} {lost rest : Multiset B} {entries : List B}
    (holds : Holds (live mem) owned start rest) (takes : Takes mem start last lost entries)
    (drained : last.Drained) :
    last.standing mem + start.others =
      start.resident mem + entries + last.others + lost := by
  have before := resident_of_holds holds
  have behind : last.standing mem = last.arpTable + last.others + (lost + rest) := by
    rw [drained.standing]
    apply resident_of_holds
    apply takes.passes
    rw [zero_add]
    exact holds
  rw [behind, before, takes.arpTable, ← Multiset.coe_add]
  abel

theorem releases_iff_lost {start last : State H B} {lost rest : Multiset B} {entries : List B}
    (holds : Holds (live mem) owned start rest) (takes : Takes mem start last lost entries)
    (drained : last.Drained) : Releases mem start last entries.length ↔ lost = 0 := by
  have balance := balance_of_takes holds takes drained
  constructor
  · rintro ⟨entries', grown, _, released⟩
    have same : entries' = entries := List.append_cancel_right (grown.symm.trans takes.arpTable)
    rw [balance, same] at released
    exact add_eq_left.mp released
  · intro nothing
    refine ⟨entries, takes.arpTable, rfl, ?_⟩
    rw [balance, nothing, add_zero]

end State

/-- From every state that is accounted for, through every run of received frames,
tasks, ticks and whatever else happens in which the handlers find their headers in the
frames, once the frames are handled and their transmissions drained: the heap holds what
it held before, and one block for each pending request answered, exactly if no request
for our address was handled and no packet transmitted to a next hop that was not in the
ARP table. -/
theorem frames_released_iff {H B : Type} [DecidableEq B] (mem : Allocator H B)
    (start last : State H B) (events : List (NetEvent B)) (accounted : start.Accounted mem)
    (followed : State.Followed mem start events last) (drained : last.Drained) :
    State.Releases mem start last (tally (State.step mem) State.answered start events) ↔
      Guarded (State.step mem) State.NoArpLoss start events := by
  rcases Multiset.le_iff_exists_add.mp accounted with ⟨rest, holds⟩
  rcases State.accounts_run followed.executed with ⟨lost, entries, takes, losses, count⟩
  rw [← count, ← losses]
  exact State.releases_iff_lost holds takes drained

/-- A stack that has received nothing yet, on a heap where nothing is allocated. -/
def idle : State (SoundHeap linkedPlace) Nat where
  heap := .start linkedPlace fun _ => 0
  tables := emptyTables
  currentFrame := none
  pktRxQ := []
  rxPkt := none
  ip4TxQueue := []
  txPkt := none
  etherTxQueue := []
  txdPkt := none
  arpTable := []
  waiting := []
  others := []

/-- A frame of one fragment. -/
def received (bytes : List UInt8) : NetEvent Nat :=
  .fragment ((1 : UInt32) <<< 30 ||| .ofNat (bytes.length - 1)) (fun i => bytes.getD i 0) ⟨0, 0⟩

/-- A packet for `192.168.0.7`, whose address `ip4_tx_task` asks for. -/
def sendsToNeighbour : List (NetEvent Nat) :=
  [.xmitOther 0xC0A80007 28, .ip4Pop, .ip4Xmit, .etherPop, .etherXmit]

theorem isSome_sendsToNeighbour :
    (run (State.step linkedHeap) idle sendsToNeighbour).isSome = true := by
  decide +kernel

/-- `ip4_tx_task` has the packet in hand and waits for the address. -/
def resolvingNeighbour : State (SoundHeap linkedPlace) Nat :=
  (run (State.step linkedHeap) idle sendsToNeighbour).get isSome_sendsToNeighbour

/-- The answer of `192.168.0.7`. -/
def arpReplyBytes : List UInt8 :=
  etherAddr ++ [0, 1, 2, 3, 4, 9, 0x08, 0x06,
    0, 1, 0x08, 0, 6, 4, 0, 2, 0, 1, 2, 3, 4, 9, 192, 168, 0, 7] ++
    etherAddr ++ [192, 168, 0, 171]

/-- A SYN of `192.168.0.7` for a port that nobody listens on. -/
def synBytes : List UInt8 :=
  etherAddr ++ [0, 1, 2, 3, 4, 9, 0x08, 0x00,
    0x45, 0, 0, 40, 0, 0, 0, 0, 64, 6, 0, 0, 192, 168, 0, 7, 192, 168, 0, 171,
    0x13, 0x88, 0, 80, 0, 0, 4, 0, 0, 0, 0, 0, 0x50, 2, 0, 127, 0, 0, 0, 0]

/-- The answer makes an entry of the ARP table, the packet in hand goes out, and then the
reset that the SYN causes. -/
def neighbourReceived : List (NetEvent Nat) :=
  [received arpReplyBytes, .rxPop, .rxHandle, .rxHandle, .ip4Resume, received synBytes,
    .etherPop, .rxPop, .rxHandle, .etherXmit, .rxHandle, .rxHandle, .ip4Pop, .ip4Xmit, .etherPop,
    .etherXmit]

theorem isSome_neighbourReceived :
    (run (State.step linkedHeap) resolvingNeighbour neighbourReceived).isSome = true := by
  decide +kernel

def neighbourAnswered : State (SoundHeap linkedPlace) Nat :=
  (run (State.step linkedHeap) resolvingNeighbour neighbourReceived).get isSome_neighbourReceived

theorem accounted_resolvingNeighbour : resolvingNeighbour.Accounted linkedHeap := by
  unfold State.Accounted
  decide +kernel

/-- The headers are in the frames, one pending request is answered, and nothing is left to be
handled or transmitted. -/
theorem neighbourReceived_drains :
    Guarded (State.step linkedHeap) State.HeaderInFrame resolvingNeighbour neighbourReceived ∧
      tally (State.step linkedHeap) State.answered resolvingNeighbour neighbourReceived = 1 ∧
      neighbourAnswered.Drained := by
  decide +kernel

theorem frames_released_iff_main :
    tally (State.step linkedHeap) State.answered resolvingNeighbour neighbourReceived = 1 ∧
      (State.Releases linkedHeap resolvingNeighbour neighbourAnswered
          (tally (State.step linkedHeap) State.answered resolvingNeighbour neighbourReceived) ↔
        Guarded (State.step linkedHeap) State.NoArpLoss resolvingNeighbour neighbourReceived) := by
  rcases neighbourReceived_drains with ⟨inside, answered, drained⟩
  have followed : State.Followed linkedHeap resolvingNeighbour neighbourReceived
      neighbourAnswered := ⟨(Option.some_get isSome_neighbourReceived).symm, inside⟩
  exact ⟨answered, frames_released_iff linkedHeap _ _ _ accounted_resolvingNeighbour followed
    drained⟩

/-- An ARP request of `192.168.0.1` for our address. -/
def arpRequestBytes : List UInt8 :=
  [0xff, 0xff, 0xff, 0xff, 0xff, 0xff, 0, 1, 2, 3, 4, 9, 0x08, 0x06,
    0, 1, 0x08, 0, 6, 4, 0, 1, 0, 1, 2, 3, 4, 9, 192, 168, 0, 1,
    0, 0, 0, 0, 0, 0, 192, 168, 0, 171]

/-- The request, its reply, and the transmission of the reply. -/
def arpRequestReceived : List (NetEvent Nat) :=
  [received arpRequestBytes, .rxPop, .rxHandle, .rxHandle, .etherPop, .etherXmit]

theorem isSome_arpRequestReceived :
    (run (State.step linkedHeap) idle arpRequestReceived).isSome = true := by
  decide +kernel

theorem frames_not_released_arpRequest :
    ∃ last, run (State.step linkedHeap) idle arpRequestReceived = some last ∧ last.Drained ∧
      ¬State.Releases linkedHeap idle last
        (tally (State.step linkedHeap) State.answered idle arpRequestReceived) := by
  have executed := (Option.some_get isSome_arpRequestReceived).symm
  refine ⟨_, executed, by decide +kernel, ?_⟩
  rintro ⟨entries, grown, _, balance⟩
  have none : entries = [] :=
    (List.append_eq_nil_iff.mp (grown.symm.trans (by decide +kernel))).1
  subst none
  -- the reply is the one block that is left
  exact absurd (congrArg Multiset.card balance) (by decide +kernel)

end Lpc17xx.Net
