import Dtp.Cc.Cubic

/-!
# Leaving slow start

HyStart++ compares the delays of successive rounds. A round begins with a packet that is sent
while none is going on, and ends when this packet or a later one is acked. The rounds are recorded
beside the controller, as the packets that are sent and acked define them.

CUBIC never tells HyStart++ that a round begins. So there is no round before to compare with, and
slow start is not left, however much the delay grows.

## Main definitions

* `Cubic.Rounds` — the rounds and their smallest round-trip times
* `Cubic.Trip`, `Cubic.Timed` — packets sent and acked, with the rounds on record
* `Cubic.Timed.Delayed` — a round ends in which the delay has grown
* `Cubic.Timed.LeavesSlowStart` — what is promised at its end

## Main results

* `Cubic.Timed.leavesSlowStart_iff` — the promise is kept only where no round has grown in delay
-/

namespace Dtp.Cc.Cubic

/-! ### Rounds -/

/-- The round that is going on, and the smallest round-trip times of it and of the one before. -/
structure Rounds where
  windowEnd : Option ℕ
  lastMinRtt : Option ℕ
  currentMinRtt : Option ℕ
  samples : ℕ
  deriving DecidableEq

namespace Rounds

/-- A packet that is sent begins a round, unless one is going on. -/
def sent (r : Rounds) (pktNum : ℕ) : Rounds :=
  if r.windowEnd.isNone then ⟨some pktNum, r.currentMinRtt, none, 0⟩ else r

/-- The round has one more sample. -/
def sample (r : Rounds) (rtt : ℕ) : Rounds :=
  { r with currentMinRtt := some (Hystart.minRtt r.currentMinRtt rtt), samples := r.samples + 1 }

/-- The round ends with the ack of a packet. -/
def EndsWith (r : Rounds) (pktNum : ℕ) : Prop := ∃ n ∈ r.windowEnd, n ≤ pktNum

instance (r : Rounds) (pktNum : ℕ) : Decidable (r.EndsWith pktNum) :=
  inferInstanceAs (Decidable (∃ n ∈ r.windowEnd, n ≤ pktNum))

/-- A packet that is acked ends the round or not. -/
def acked (r : Rounds) (pktNum rtt : ℕ) : Rounds :=
  if r.EndsWith pktNum then { r.sample rtt with windowEnd := none } else r.sample rtt

/-- The round has enough samples, and its delay exceeds that of the round before by the threshold.
-/
def Grown (r : Rounds) : Prop :=
  nRttSample ≤ r.samples ∧
    ∃ last ∈ r.lastMinRtt, ∃ current ∈ r.currentMinRtt, last + Hystart.rttThresh last ≤ current

instance (r : Rounds) : Decidable r.Grown :=
  inferInstanceAs (Decidable (nRttSample ≤ r.samples ∧
    ∃ last ∈ r.lastMinRtt, ∃ current ∈ r.currentMinRtt, last + Hystart.rttThresh last ≤ current))

end Rounds

/-! ### Packets sent and acked -/

/-- A packet is sent, or acked, in the application epoch. Nothing is lost, and the application does
not limit the connection. -/
inductive Trip
  | sent (pkt : Sent) (now : ℕ)
  | acked (packet : Sent) (srtt minRtt latestRtt now : ℕ)

/-- The event that the controller hears of. -/
def Trip.event : Trip → Event
  | .sent pkt now => .sent pkt now
  | .acked packet srtt minRtt latestRtt now =>
    .acked packet srtt minRtt latestRtt false .application now

/-- A controller, with the rounds on record, and whether limited slow start was entered with the
window as threshold. -/
structure Timed (F : Type) extends Driven (Cubic F) where
  rounds : Rounds
  entered : Bool

namespace Timed

variable {F : Type} (f : Curve F)

/-- No packet is sent. -/
def new : Timed F := ⟨⟨Cubic.new f, 0⟩, ⟨none, none, none, 0⟩, false⟩

/-- Limited slow start is entered, and the threshold is the window. -/
def Enters (r r' : Cubic F) : Prop :=
  r.hystart.lssStartTime = none ∧ r'.hystart.lssStartTime.isSome ∧ r'.ssthresh = r'.congestionWindow

instance (r r' : Cubic F) : Decidable (Enters r r') :=
  inferInstanceAs (Decidable (_ ∧ _ ∧ r'.ssthresh = r'.congestionWindow))

/-- The state after a packet is sent or acked. -/
def step (t : Timed F) (trip : Trip) : Option (Timed F) :=
  (Cubic.step f t.toDriven trip.event).map fun d =>
    { toDriven := d
      rounds :=
        match trip with
        | .sent pkt _ => t.rounds.sent pkt.pktNum
        | .acked packet _ _ latestRtt _ => t.rounds.acked packet.pktNum latestRtt
      entered := t.entered || decide (Enters t.cc d.cc) }

/-- The round ends with an acked packet, its delay has grown, and the window, which is `t'.cwnd`
after the ack, is large enough. -/
def Delayed (t : Timed F) (trip : Trip) : Prop :=
  match trip with
  | .sent _ _ => False
  | .acked packet _ _ latestRtt _ =>
    t.rounds.EndsWith packet.pktNum ∧ (t.rounds.sample latestRtt).Grown ∧
      ∃ t' ∈ t.step f trip, lowCwnd * maxDatagramSize ≤ t'.cc.congestionWindow

instance (t : Timed F) (trip : Trip) : Decidable (t.Delayed f trip) :=
  match trip with
  | .sent _ _ => isFalse id
  | .acked packet srtt minRtt latestRtt now =>
    inferInstanceAs (Decidable (t.rounds.EndsWith packet.pktNum ∧
      (t.rounds.sample latestRtt).Grown ∧
      ∃ t' ∈ t.step f (.acked packet srtt minRtt latestRtt now),
        lowCwnd * maxDatagramSize ≤ t'.cc.congestionWindow))

/-- By the end of a round whose delay has grown, limited slow start was entered. -/
def LeavesSlowStart (t : Timed F) (trip : Trip) : Prop :=
  t.Delayed f trip → ∀ t' ∈ t.step f trip, t'.entered = true

variable {f} {t t' : Timed F} {trip : Trip}

/-- Slow start was not left. -/
structure InSlowStart (t : Timed F) : Prop where
  settled : Settled t.cc t.lostCount
  notEntered : t.entered = false

theorem InSlowStart.step (h : InSlowStart t) (hstep : t.step f trip = some t') :
    InSlowStart t' := by
  obtain ⟨d, hd, rfl⟩ := Option.map_eq_some_iff.mp hstep
  have hsettled := h.settled.step hd
  have hnot : ¬ Enters t.cc d.cc := by
    rintro ⟨-, hsome, -⟩
    rw [hsettled.noLss.start] at hsome
    cases hsome
  refine ⟨hsettled, ?_⟩
  simp [h.notEntered, hnot]

theorem inSlowStart_new : InSlowStart (new f) := ⟨settled_new, rfl⟩

theorem InSlowStart.leaves_iff (h : InSlowStart t) (trip : Trip) :
    t.LeavesSlowStart f trip ↔ ¬ t.Delayed f trip := by
  constructor
  · intro hleaves hdelayed
    obtain ⟨t', hstep, -⟩ : ∃ t' ∈ t.step f trip, True := by
      cases trip with
      | sent pkt now => exact hdelayed.elim
      | acked packet srtt minRtt latestRtt now =>
        obtain ⟨-, -, t', hstep, -⟩ := hdelayed
        exact ⟨t', hstep, trivial⟩
    have hentered := hleaves hdelayed t' hstep
    rw [(h.step hstep).notEntered] at hentered
    cases hentered
  · exact fun hnot hdelayed => absurd hdelayed hnot

/-- Along a run, slow start is left when the delay grows, exactly if the delay never grows: where it
does, limited slow start is not entered. -/
theorem leavesSlowStart_iff (f : Curve F) (trips : List Trip) :
    Lib.AllSteps (step f) (LeavesSlowStart f) (new f) trips ↔
      Lib.AllSteps (step f) (fun t trip => ¬ t.Delayed f trip) (new f) trips :=
  Lib.allSteps_iff (I := InSlowStart) (fun _ _ _ h hstep => h.step hstep)
    (fun _ trip h => h.leaves_iff trip) inSlowStart_new

end Timed

/-- Ten packets are sent. The first one is acked after 10 ms, and the round ends. Another one is
sent, and the next round lasts until it is acked. In it all packets are acked after 15 ms. -/
def growingDelay : List Trip :=
  let pkt (n : ℕ) : Sent := ⟨n, [], n, 1452, true, true, .none⟩
  (List.range 10).map (fun n => .sent (pkt n) n) ++
    .acked (pkt 0) 10000000 10000000 10000000 10000000 :: .sent (pkt 10) 10000001 ::
      (List.range 10).map fun n => .acked (pkt (n + 1)) 15000000 10000000 15000000 30000000

/-- The delay grows by half, and slow start goes on. -/
theorem not_leavesSlowStart_growingDelay : ¬ ∀ trips : List Trip,
    Lib.AllSteps (Timed.step flatCurve) (Timed.LeavesSlowStart flatCurve)
        (.new flatCurve) trips := by
  intro h
  have hnever := (Lib.allSteps_iff (I := Timed.InSlowStart) (fun _ _ _ h hstep => h.step hstep)
    (fun _ trip h => h.leaves_iff trip) Timed.inSlowStart_new).mp (h growingDelay)
  revert hnever
  decide +kernel

end Dtp.Cc.Cubic
