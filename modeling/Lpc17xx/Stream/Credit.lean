import Mathlib.Data.List.Basic

/-!
# One direction of a credit-controlled stream

A sender hands pieces of a stream to a lossless first-in first-out channel and
a receiver with bounded room takes them out.  Acknowledgements travel back in
order; each names the position reached and the room left at that moment.  A
sender with nothing outstanding that stays within the last acknowledged room
never overruns the receiver, however far the acknowledgements lag behind.
-/

namespace Lpc17xx.Stream

universe u

/-- An acknowledgement under way: the stream position it confirms and the room
behind that position. -/
structure Ack where
  upTo : Nat
  window : Nat
  deriving DecidableEq, Repr

/-- One direction of the stream.  `wire` and `acks` are under way, oldest first;
`acked` and `credit` are what the sender took from the last acknowledgement. -/
structure Flow (α : Type u) where
  sent : List α
  wire : List (List α)
  received : List α
  room : Nat
  acks : List Ack
  acked : Nat
  credit : Nat

/-- Acknowledgements in order: none goes back, none confirms more than `high`
and none offers room beyond `limit`. -/
def Ordered (limit high : Nat) : Nat → List Ack → Prop
  | low, [] => low ≤ high
  | low, ack :: acks =>
      low ≤ ack.upTo ∧ ack.upTo + ack.window ≤ limit ∧ Ordered limit high ack.upTo acks

theorem Ordered.le {limit high low : Nat} {acks : List Ack}
    (ordered : Ordered limit high low acks) : low ≤ high := by
  induction acks generalizing low with
  | nil => exact ordered
  | cons ack acks ih => exact Nat.le_trans ordered.1 (ih ordered.2.2)

/-- Both bounds may grow. -/
theorem Ordered.mono {limit limit' high high' low : Nat} {acks : List Ack}
    (limitLe : limit ≤ limit') (highLe : high ≤ high') (ordered : Ordered limit high low acks) :
    Ordered limit' high' low acks := by
  induction acks generalizing low with
  | nil => exact Nat.le_trans ordered highLe
  | cons ack acks ih =>
      rcases ordered with ⟨forward, offered, rest⟩
      exact ⟨forward, Nat.le_trans offered limitLe, ih rest⟩

/-- A fresh acknowledgement of everything received goes to the end. -/
theorem Ordered.snoc {limit high low window : Nat} {acks : List Ack}
    (offered : high + window ≤ limit) (ordered : Ordered limit high low acks) :
    Ordered limit high low (acks ++ [⟨high, window⟩]) := by
  induction acks generalizing low with
  | nil => exact ⟨ordered, offered, Nat.le_refl high⟩
  | cons ack acks ih =>
      rcases ordered with ⟨forward, offered', rest⟩
      exact ⟨forward, offered', ih rest⟩

namespace Flow

variable {α : Type u}

/-- The position up to which the receiver has room. -/
def limit (f : Flow α) : Nat :=
  f.received.length + f.room

/-- The direction as it is opened, with all of `room` granted. -/
def opening (room : Nat) : Flow α where
  sent := []
  wire := []
  received := []
  room := room
  acks := []
  acked := 0
  credit := room

/-- The sender hands one piece to the channel. -/
def transmit (f : Flow α) (piece : List α) : Flow α :=
  { f with sent := f.sent ++ piece, wire := f.wire ++ [piece] }

/-- The receiver takes `piece` off the channel, `rest` being left. -/
def arrive (f : Flow α) (piece : List α) (rest : List (List α)) : Flow α :=
  { f with
    wire := rest
    received := f.received ++ piece
    room := f.room - piece.length }

/-- The receiver makes room. -/
def consume (f : Flow α) (count : Nat) : Flow α :=
  { f with room := f.room + count }

/-- The receiver acknowledges what it has received. -/
def acknowledge (f : Flow α) : Flow α :=
  { f with acks := f.acks ++ [⟨f.received.length, f.room⟩] }

/-- The sender takes `ack` off the channel, `rest` being left. -/
def ackArrive (f : Flow α) (ack : Ack) (rest : List Ack) : Flow α :=
  { f with acks := rest, acked := ack.upTo, credit := ack.window }

/-- The invariant: the stream is what was received followed by what is under
way, the acknowledgements are in order, the credit is covered, and all that was
sent has room. -/
structure Sound (f : Flow α) : Prop where
  stream : f.sent = f.received ++ f.wire.flatten
  ordered : Ordered f.limit f.received.length f.acked f.acks
  granted : f.acked + f.credit ≤ f.limit
  fits : f.sent.length ≤ f.limit

theorem sound_opening (room : Nat) : (opening room : Flow α).Sound := by
  constructor
  · rfl
  · exact Nat.le_refl 0
  · simp [opening, limit]
  · simp [opening, limit]

namespace Sound

variable {f : Flow α}

/-- What was received is always the beginning of what was sent. -/
theorem received_le_sent (sound : f.Sound) : f.received <+: f.sent :=
  ⟨f.wire.flatten, sound.stream.symm⟩

theorem length_received_le (sound : f.Sound) : f.received.length ≤ f.sent.length :=
  sound.received_le_sent.length_le

theorem acked_le_received (sound : f.Sound) : f.acked ≤ f.received.length :=
  sound.ordered.le

/-- Once everything is acknowledged everything was received. -/
theorem received_eq_sent (sound : f.Sound) (quiet : f.acked = f.sent.length) :
    f.received = f.sent := by
  apply sound.received_le_sent.eq_of_length
  have forward := sound.acked_le_received
  have back := sound.length_received_le
  omega

/-- The next piece to arrive has room. -/
theorem length_le_room (sound : f.Sound) {piece : List α} {rest : List (List α)}
    (next : f.wire = piece :: rest) : piece.length ≤ f.room := by
  have fits := sound.fits
  rw [sound.stream, next, limit] at fits
  simp only [List.flatten_cons, List.length_append] at fits
  omega

/-- With everything acknowledged the credit is room that the receiver has. -/
theorem credit_le_room (sound : f.Sound) (quiet : f.acked = f.sent.length) :
    f.credit ≤ f.room := by
  have granted := sound.granted
  have same := congrArg List.length (sound.received_eq_sent quiet)
  unfold limit at granted
  omega

theorem transmit (sound : f.Sound) {piece : List α}
    (fits : f.sent.length + piece.length ≤ f.limit) : (f.transmit piece).Sound := by
  refine ⟨?_, sound.ordered, sound.granted, ?_⟩
  · simp [Flow.transmit, sound.stream, List.flatten_append]
  · simpa [Flow.transmit, limit] using fits

/-- A piece without content may always be sent. -/
theorem transmit_nil (sound : f.Sound) : (f.transmit []).Sound :=
  sound.transmit sound.fits

/-- A sender with nothing outstanding may use its credit. -/
theorem transmit_granted (sound : f.Sound) {piece : List α}
    (quiet : f.acked = f.sent.length) (covered : piece.length ≤ f.credit) :
    (f.transmit piece).Sound := by
  apply sound.transmit
  have granted := sound.granted
  omega

theorem limit_arrive (sound : f.Sound) {piece : List α} {rest : List (List α)}
    (next : f.wire = piece :: rest) : (f.arrive piece rest).limit = f.limit := by
  have room := sound.length_le_room next
  simp only [limit, Flow.arrive, List.length_append]
  omega

theorem arrive (sound : f.Sound) {piece : List α} {rest : List (List α)}
    (next : f.wire = piece :: rest) : (f.arrive piece rest).Sound := by
  have same := sound.limit_arrive next
  constructor
  · change f.sent = (f.received ++ piece) ++ rest.flatten
    rw [sound.stream, next, List.flatten_cons, List.append_assoc]
  · rw [same]
    exact sound.ordered.mono (Nat.le_refl _) (by simp [Flow.arrive])
  · rw [same]
    exact sound.granted
  · rw [same]
    exact sound.fits

theorem consume (sound : f.Sound) (count : Nat) : (f.consume count).Sound := by
  have grows : f.limit ≤ (f.consume count).limit := by
    simp only [limit, Flow.consume]
    omega
  exact ⟨sound.stream, sound.ordered.mono grows (Nat.le_refl _),
    Nat.le_trans sound.granted grows, Nat.le_trans sound.fits grows⟩

theorem acknowledge (sound : f.Sound) : f.acknowledge.Sound :=
  ⟨sound.stream, sound.ordered.snoc (Nat.le_refl _), sound.granted, sound.fits⟩

/-- What the next acknowledgement says. -/
theorem ack_bounds (sound : f.Sound) {ack : Ack} {rest : List Ack} (next : f.acks = ack :: rest) :
    f.acked ≤ ack.upTo ∧ ack.upTo ≤ f.received.length := by
  have ordered := sound.ordered
  rw [next] at ordered
  exact ⟨ordered.1, ordered.2.2.le⟩

theorem ackArrive (sound : f.Sound) {ack : Ack} {rest : List Ack} (next : f.acks = ack :: rest) :
    (f.ackArrive ack rest).Sound := by
  have ordered := sound.ordered
  rw [next] at ordered
  rcases ordered with ⟨_, offered, behind⟩
  exact ⟨sound.stream, behind, offered, sound.fits⟩

end Sound

end Flow

end Lpc17xx.Stream
