import Lpc17xx.Tcp.Pair
import Mathlib.Data.List.Perm.Basic

/-!
# Resets

A segment for which there is no TCB is answered by a reset, unless it is one itself.  The
reset acknowledges what the segment takes of the sequence numbers; the code counts the
payload and a SYN, but no FIN.
-/

namespace Lpc17xx.Tcp

open Lpc17xx.Transition

/-- SEG.LEN: the payload, one for a SYN and one for a FIN. -/
def segLen (incoming : TcpHeader) (dataLen : UInt32) : UInt32 :=
  dataLen + (if incoming.syn then 1 else 0) + (if incoming.fin then 1 else 0)

/-- What should be sent in answer to a segment for no connection. -/
def resetsFor (srcIp : UInt32) (incoming : TcpHeader) (dataLen : UInt32) : List TcpTx :=
  let reset := { TcpHeader.zero with
    sourcePort := incoming.destPort
    destPort := incoming.sourcePort
    dataOffset := 5
    rst := true }
  if incoming.rst then []
  else if incoming.ack then [⟨{ reset with seqN := incoming.ackN }, srcIp, []⟩]
  else [⟨{ reset with ackN := incoming.seqN + segLen incoming dataLen, ack := true }, srcIp, []⟩]

/-- No TCB has the tuple of the segment, and none listens on its port. -/
def Stray (tcbHead : List Tcb) (srcIp : UInt32) (incoming : TcpHeader) : Prop :=
  ∀ t ∈ tcbHead,
    ¬(t.srcPort = incoming.destPort ∧ t.dstPort = incoming.sourcePort ∧ t.dstIp = srcIp) ∧
      ¬(t.state = .listen ∧ t.srcPort = incoming.destPort)

/-- The segment is a reset, or its FIN is not what an acknowledgement is made for. -/
def FinUncounted (incoming : TcpHeader) : Prop :=
  incoming.rst = true ∨ incoming.ack = true ∨ incoming.fin = false

section Stray

variable {tcbHead : List Tcb} {srcIp : UInt32} {incoming : TcpHeader} {data : Nat → UInt8}
  {dataLen : UInt32}

theorem findTcb_of_stray (stray : Stray tcbHead srcIp incoming) :
    findTcb tcbHead srcIp incoming = none := by
  rw [findTcb, Option.or_eq_none_iff, List.findIdx?_eq_none_iff, List.findIdx?_eq_none_iff]
  constructor
  · intro t member
    rw [Bool.eq_false_iff]
    intro connected
    simp only [Tcb.matchesConnection, Bool.and_eq_true, beq_iff_eq] at connected
    exact (stray t member).1 ⟨connected.1.1.symm, connected.1.2.symm, connected.2⟩
  · intro t member
    rw [Bool.eq_false_iff]
    intro accepts
    simp only [Tcb.acceptsConnection, Bool.and_eq_true, beq_iff_eq] at accepts
    exact (stray t member).2 ⟨accepts.1, accepts.2.symm⟩

/-- A stray segment changes no TCB. -/
theorem rxSegment_of_stray (stray : Stray tcbHead srcIp incoming) :
    rxSegment tcbHead srcIp incoming data dataLen =
      some { tcbHead, sent := rxNoTcb srcIp incoming dataLen, wakeup := false } := by
  rw [rxSegment, findTcb_of_stray stray]

/-- The answer is right unless a FIN ought to be acknowledged. -/
theorem rxNoTcb_eq_iff :
    rxNoTcb srcIp incoming dataLen = resetsFor srcIp incoming dataLen ↔
      FinUncounted incoming := by
  unfold rxNoTcb resetsFor FinUncounted segLen
  cases incoming.rst with
  | true => simp
  | false =>
      cases incoming.ack with
      | true => simp
      | false =>
          cases fin : incoming.fin with
          | false => cases incoming.syn <;> simp
          | true =>
              have differ (n : UInt32) : n ≠ n + 1 := by
                intro same
                rw [← UInt32.toNat_inj, UInt32.toNat_add] at same
                have bound := n.toNat_lt
                have one : (1 : UInt32).toNat = 1 := rfl
                omega
              cases incoming.syn <;> simp [differ, UInt32.add_assoc]

/-- One reset at most is sent, and only in answer to what is none. -/
theorem rxNoTcb_resets :
    (rxNoTcb srcIp incoming dataLen).length = (if incoming.rst then 0 else 1) ∧
      ∀ tx ∈ rxNoTcb srcIp incoming dataLen, tx.header.rst = true := by
  unfold rxNoTcb
  cases incoming.rst <;> cases incoming.ack <;> simp

end Stray

/-- Two hosts without TCBs, and what each has sent and the other has not received. -/
structure StrayNet where
  wire : Side → List TcpTx
  resets : Nat

namespace StrayNet

/-- The segments under way that are no resets. -/
def strays (s : StrayNet) : Nat :=
  (s.wire .connecting).countP (fun tx => !tx.header.rst) +
    (s.wire .listening).countP fun tx => !tx.header.rst

/-- A segment under way, whichever it is, is handed to `tcp_rx_packet` of `side`, and what
that sends is under way to the other side. -/
def step (ip : Side → UInt32) : Step StrayNet (Side × Nat)
  | s, (side, index) => do
      let tx ← (s.wire side.other)[index]?
      let outcome ← rxSegment [] (ip side.other) tx.header (fun i => tx.payload.getD i 0)
        (UInt32.ofNat tx.payload.length)
      some
        { wire := Function.update
            (Function.update s.wire side.other ((s.wire side.other).eraseIdx index))
            side (s.wire side ++ outcome.sent)
          resets := s.resets + outcome.sent.length }

theorem countP_eraseIdx {wire : List TcpTx} {index : Nat} {tx : TcpTx}
    (found : wire[index]? = some tx) (test : TcpTx → Bool) :
    (wire.eraseIdx index).countP test + (if test tx then 1 else 0) = wire.countP test := by
  rcases List.getElem?_eq_some_iff.mp found with ⟨bound, rfl⟩
  rw [← (List.getElem_cons_eraseIdx_perm bound).countP_eq test, List.countP_cons]

/-- Either side may be counted first. -/
theorem strays_eq (s : StrayNet) (side : Side) :
    s.strays = (s.wire side).countP (fun tx => !tx.header.rst) +
      (s.wire side.other).countP fun tx => !tx.header.rst := by
  cases side with
  | connecting => rfl
  | listening => exact Nat.add_comm _ _

/-- Each reset comes in the place of a segment that is none. -/
theorem conserved (ip : Side → UInt32) (s : StrayNet) (delivery : Side × Nat) (s' : StrayNet)
    (taken : step ip s delivery = some s') :
    s'.resets + s'.strays = s.resets + s.strays := by
  rcases delivery with ⟨side, index⟩
  rcases Option.bind_eq_some_iff.mp taken with ⟨tx, found, rest⟩
  have stray : Stray [] (ip side.other) tx.header := by
    intro t member
    contradiction
  rw [rxSegment_of_stray stray] at rest
  cases rest
  have erased := countP_eraseIdx found fun tx => !tx.header.rst
  rcases @rxNoTcb_resets (ip side.other) tx.header (UInt32.ofNat tx.payload.length) with
    ⟨count, marked⟩
  generalize rxNoTcb (ip side.other) tx.header (UInt32.ofNat tx.payload.length) = sent
    at count marked ⊢
  have none : sent.countP (fun tx => !tx.header.rst) = 0 := by
    refine List.countP_eq_zero.mpr fun tx member => ?_
    simp [marked tx member]
  rw [strays_eq _ side, s.strays_eq side]
  simp only [Function.update_self, Function.update_of_ne side.other_ne, List.countP_append, none,
    count]
  have answered : (if !tx.header.rst then 1 else 0) = if tx.header.rst then 0 else 1 := by
    cases tx.header.rst <;> rfl
  rw [answered] at erased
  omega

/-- In a run, no more resets are sent than there were segments under way. -/
theorem resets_le {ip : Side → UInt32} {s s' : StrayNet} {deliveries : List (Side × Nat)}
    (executed : run (step ip) s deliveries = some s') (none : s.resets = 0) :
    s'.resets ≤ s.strays := by
  have kept : s'.resets + s'.strays = s.strays := by
    refine @invariant_of_reachable _ _ (step ip) (fun t => t.resets + t.strays = s.strays) ?_
      s s' ?_ ⟨deliveries, executed⟩
    · intro t delivery t' same taken
      exact (conserved ip t delivery t' taken).trans same
    · rw [none, Nat.zero_add]
  omega

end StrayNet

section Reset

variable {tcbHead : List Tcb} {srcIp : UInt32} {incoming : TcpHeader}

/-- A stray segment gets the answer that it should get exactly if it is a reset, or carries
an acknowledgement, or no FIN.  Between hosts without TCBs, whatever is under way, there
are no more resets than stray segments. -/
theorem reset_generated_iff (stray : Stray tcbHead srcIp incoming) (data : Nat → UInt8)
    (dataLen : UInt32) :
    (rxSegment tcbHead srcIp incoming data dataLen =
        some { tcbHead, sent := resetsFor srcIp incoming dataLen, wakeup := false } ↔
      FinUncounted incoming) ∧
    ∀ (ip : Side → UInt32) (s s' : StrayNet) (deliveries : List (Side × Nat)), s.resets = 0 →
      run (StrayNet.step ip) s deliveries = some s' → s'.resets ≤ s.strays := by
  constructor
  · rw [rxSegment_of_stray stray, Option.some_inj, HostOutcome.mk.injEq]
    simp only [true_and, and_true]
    exact rxNoTcb_eq_iff
  · intro ip s s' deliveries none executed
    exact StrayNet.resets_le executed none

/-- A segment with a SYN, for a port where nobody listens. -/
def strayHeader : TcpHeader :=
  { TcpHeader.zero with
    sourcePort := 4000
    destPort := 80
    seqN := 100
    dataOffset := 5
    syn := true }

theorem reset_generated_iff_strayHeader :
    rxSegment [] 0x0A000001 strayHeader (fun _ => 0) 3 =
      some { tcbHead := [], sent := resetsFor 0x0A000001 strayHeader 3, wakeup := false } :=
  (reset_generated_iff (fun _ member => absurd member List.not_mem_nil) _ _).1.mpr
    (.inr (.inr rfl))

/-- The same with a FIN in the place of the SYN. -/
def strayFin : TcpHeader :=
  { strayHeader with syn := false, fin := true }

/-- The reset acknowledges what is before the FIN, not the FIN. -/
theorem reset_not_generated :
    rxSegment [] 0x0A000001 strayFin (fun _ => 0) 0 ≠
        some { tcbHead := [], sent := resetsFor 0x0A000001 strayFin 0, wakeup := false } ∧
      (rxNoTcb 0x0A000001 strayFin 0).map (·.header.ackN) = [100] ∧
      (resetsFor 0x0A000001 strayFin 0).map (·.header.ackN) = [101] := by
  decide

end Reset

end Lpc17xx.Tcp
