import Dtp.Cc.Controller

/-!
# Reno

The window grows with every acked packet, by its size in slow start and more slowly after it. A loss
halves the window and begins a recovery period. Packets that were sent before the period began
neither grow the window when they are acked nor halve it again when they are lost.

## Main definitions

* `Reno`, `Reno.onPacketAckedCc`, `Reno.congestionEvent` — the controller
* `Reno.BeginsRecovery` — a loss begins a recovery period

## Main results

* `Reno.step_cases` — what an event does to the window
* `Reno.reduces_once` — along every run the window is at least the minimum, and decreases only
  where a recovery period begins
-/

namespace Dtp.Cc

/-- Reno congestion control implementation. -/
structure Reno where
  congestionWindow : ℕ
  bytesInFlight : ℕ
  congestionRecoveryStartTime : Option ℕ
  ssthresh : ℕ
  deriving DecidableEq

namespace Reno

/-- A new controller has the initial window, and no threshold. -/
def new : Reno := ⟨initialWindow, 0, none, u64Max⟩

/-- The window is the minimum. -/
def collapseCwnd (r : Reno) : Reno := { r with congestionWindow := minimumWindow }

/-- Bytes in flight are subtracted, down to zero. -/
def decreaseBytesInFlight (r : Reno) (bytes : ℕ) : Reno :=
  { r with bytesInFlight := r.bytesInFlight - bytes }

/-- The bytes of a packet are in flight. -/
def onPacketSentCc (r : Reno) (bytesSent : ℕ) : Reno :=
  { r with bytesInFlight := r.bytesInFlight + bytesSent }

/-- The window after an acked packet that grows it. -/
def grow (r : Reno) (size : ℕ) : Reno :=
  if r.congestionWindow < r.ssthresh then
    -- Slow start.
    { r with congestionWindow := r.congestionWindow + size }
  else
    -- Congestion avoidance.
    { r with congestionWindow := r.congestionWindow + maxDatagramSize * size / r.congestionWindow }

/-- A packet is acked, and the window grows, unless the packet counts as old. -/
def onPacketAckedCc (r : Reno) (packet : Sent) (appLimited : Bool) : Except Fault Reno :=
  if r.bytesInFlight < packet.size then .error .underflow
  else
    let r := { r with bytesInFlight := r.bytesInFlight - packet.size }
    if inCongestionRecovery r.congestionRecoveryStartTime packet.time then .ok r
    else if appLimited then .ok r
    else .ok (r.grow packet.size)

/-- Starts a new congestion event if the packet was sent after the start of the previous congestion
recovery period. The factor by which a loss reduces the window is 0.5. -/
def congestionEvent (r : Reno) (timeSent now : ℕ) : Reno :=
  if ¬ inCongestionRecovery r.congestionRecoveryStartTime timeSent then
    let congestionWindow := max (asF64 r.congestionWindow / 2) minimumWindow
    { r with
      congestionRecoveryStartTime := some now
      congestionWindow := congestionWindow
      ssthresh := congestionWindow }
  else r

/-- Reno as a congestion controller. -/
def congestionControl : CongestionControl Reno where
  cwnd r := r.congestionWindow
  bytesInFlight r := r.bytesInFlight
  decreaseBytesInFlight r bytes := .ok (r.decreaseBytesInFlight bytes)
  collapseCwnd := collapseCwnd
  onPacketSentCc r pkt _ := .ok (r.onPacketSentCc pkt.size)
  onPacketAckedCc r a := r.onPacketAckedCc a.packet a.appLimited
  congestionEvent r e := .ok (r.congestionEvent e.timeSent e.now)
  ccBbrBeginAck r _ := .ok r
  ccBbrEndAck r _ := .ok r

/-- The events of a connection with Reno. -/
abbrev step : Driven Reno → Event → Option (Driven Reno) := Driven.step congestionControl

/-! ### The operations -/

/-- The controller with other bytes in flight. -/
def counting (r : Reno) (bytesInFlight : ℕ) : Reno := { r with bytesInFlight }

@[simp] theorem counting_window (r : Reno) (n : ℕ) :
    (r.counting n).congestionWindow = r.congestionWindow := rfl

@[simp] theorem counting_start (r : Reno) (n : ℕ) :
    (r.counting n).congestionRecoveryStartTime = r.congestionRecoveryStartTime := rfl

@[simp] theorem counting_ssthresh (r : Reno) (n : ℕ) : (r.counting n).ssthresh = r.ssthresh := rfl

/-- Only the bytes in flight differ. -/
def SameWindow (r r' : Reno) : Prop := r' = r.counting r'.bytesInFlight

theorem SameWindow.trans {r r' r'' : Reno} (h : SameWindow r r') (h' : SameWindow r' r'') :
    SameWindow r r'' := by
  unfold SameWindow at *
  rw [h', h]
  rfl

theorem SameWindow.window {r r' : Reno} (h : SameWindow r r') :
    r'.congestionWindow = r.congestionWindow :=
  (congrArg congestionWindow h).trans (counting_window r _)

theorem SameWindow.start {r r' : Reno} (h : SameWindow r r') :
    r'.congestionRecoveryStartTime = r.congestionRecoveryStartTime :=
  (congrArg congestionRecoveryStartTime h).trans (counting_start r _)

theorem SameWindow.threshold {r r' : Reno} (h : SameWindow r r') : r'.ssthresh = r.ssthresh :=
  (congrArg ssthresh h).trans (counting_ssthresh r _)

private theorem sameWindow_decreased {r r' : Reno} (h : Driven.Decreased congestionControl r r') :
    SameWindow r r' := by
  induction h with
  | refl => rfl
  | tail _ hstep ih =>
    obtain ⟨bytes, hbytes⟩ := hstep
    cases hbytes
    exact ih.trans rfl

theorem le_grow (r : Reno) (size : ℕ) : r.congestionWindow ≤ (r.grow size).congestionWindow := by
  unfold grow
  split_ifs <;> exact Nat.le_add_right _ _

@[simp] theorem grow_bytes (r : Reno) (size : ℕ) :
    (r.grow size).bytesInFlight = r.bytesInFlight := by
  unfold grow
  split_ifs <;> rfl

@[simp] theorem grow_start (r : Reno) (size : ℕ) :
    (r.grow size).congestionRecoveryStartTime = r.congestionRecoveryStartTime := by
  unfold grow
  split_ifs <;> rfl

/-- An acked packet grows the window, unless it was sent before the recovery period began. -/
theorem acked_cases {r r' : Reno} {packet : Sent} {appLimited : Bool}
    (hacked : r.onPacketAckedCc packet appLimited = .ok r') :
    SameWindow r r' ∨ ¬ inCongestionRecovery r.congestionRecoveryStartTime packet.time ∧
      r' = (r.counting r'.bytesInFlight).grow packet.size := by
  unfold onPacketAckedCc at hacked
  dsimp only at hacked
  split_ifs at hacked with hunder hrecovery <;> cases hacked
  · exact .inl rfl
  · exact .inl rfl
  · refine .inr ⟨hrecovery, ?_⟩
    rw [grow_bytes]
    rfl

theorem congestionEvent_of_inCongestionRecovery {r : Reno} {timeSent : ℕ}
    (h : inCongestionRecovery r.congestionRecoveryStartTime timeSent) (now : ℕ) :
    r.congestionEvent timeSent now = r := if_neg (not_not.mpr h)

/-- A loss reduces the window, but not below the minimum. -/
theorem congestionEvent_window {r : Reno} {timeSent now : ℕ}
    (hmin : minimumWindow ≤ r.congestionWindow) :
    minimumWindow ≤ (r.congestionEvent timeSent now).congestionWindow ∧
      (r.congestionEvent timeSent now).congestionWindow ≤ r.congestionWindow := by
  have hround : asF64 r.congestionWindow ≤ 2 * r.congestionWindow := Lib.roundBits_le (by decide) _
  by_cases hrecovery : inCongestionRecovery r.congestionRecoveryStartTime timeSent
  · rw [congestionEvent_of_inCongestionRecovery hrecovery]
    exact ⟨hmin, le_rfl⟩
  · rw [congestionEvent, if_pos hrecovery]
    exact ⟨Nat.le_max_right _ _, Nat.max_le.mpr ⟨by omega, hmin⟩⟩

/-! ### Runs -/

/-- The loss of a packet `p`, reported at `now`, begins a recovery period. -/
structure BeginsRecovery (d : Driven Reno) (e : Event) (p : Sent) (now : ℕ) (d' : Driven Reno) :
    Prop where
  lost : ∃ pkts epoch srtt, e = .lost pkts epoch srtt now ∧ p ∈ pkts ∧ p.inFlight
  after : ¬ inCongestionRecovery d.cc.congestionRecoveryStartTime p.time
  start : d'.cc.congestionRecoveryStartTime = some now
  window : d'.cc.ssthresh = d'.cc.congestionWindow

/-- An event leaves the window alone, or it is an acked packet that grows the window, or a loss with
which a recovery period begins. -/
theorem step_cases {d d' : Driven Reno} {e : Event} (hstep : step d e = some d') :
    SameWindow d.cc d'.cc ∨
      (∃ packet srtt minRtt latestRtt appLimited epoch now,
        e = .acked packet srtt minRtt latestRtt appLimited epoch now ∧
        ¬ inCongestionRecovery d.cc.congestionRecoveryStartTime packet.time ∧
        d'.cc = (d.cc.counting d'.cc.bytesInFlight).grow packet.size) ∨
      ∃ p now, BeginsRecovery d e p now d' ∧
        d'.cc = (d.cc.counting d'.cc.bytesInFlight).congestionEvent p.time now := by
  have hhandle := Lib.toOption_eq_some.mp hstep
  cases e with
  | sent pkt now =>
    cases hhandle
    exact .inl rfl
  | beginAck now =>
    cases hhandle
    exact .inl rfl
  | acked packet srtt minRtt latestRtt appLimited epoch now =>
    obtain ⟨cc, hcc, rfl⟩ := Lib.map_eq_ok.mp hhandle
    rcases acked_cases hcc with hsame | ⟨hafter, hgrow⟩
    · exact .inl hsame
    · exact .inr (.inl ⟨packet, srtt, minRtt, latestRtt, appLimited, epoch, now, rfl,
        hafter, hgrow⟩)
  | endAck random =>
    cases hhandle
    exact .inl rfl
  | lost pkts epoch srtt now =>
    obtain ⟨cc, hdecreased, -, hreport⟩ := Driven.lost_cases hhandle
    have hsame := sameWindow_decreased hdecreased
    rcases hreport with ⟨-, heq⟩ | ⟨p, hlast, hcc⟩
    · exact .inl (heq ▸ hsame)
    · obtain ⟨hp, hflight⟩ := List.mem_filter.mp (List.mem_of_getLast? hlast)
      have hevent : d'.cc = cc.congestionEvent p.time now := (Except.ok.inj hcc).symm
      have hstart := hsame.start
      -- only a loss of a packet sent after recovery started begins it anew
      by_cases hrecovery : inCongestionRecovery cc.congestionRecoveryStartTime p.time
      · rw [congestionEvent_of_inCongestionRecovery hrecovery] at hevent
        exact .inl (hevent ▸ hsame)
      · refine .inr
          (.inr ⟨p, now, ⟨⟨pkts, epoch, srtt, rfl, hp, hflight⟩, hstart ▸ hrecovery, ?_, ?_⟩, ?_⟩)
        · rw [hevent, congestionEvent, if_pos hrecovery]
        · rw [hevent, congestionEvent, if_pos hrecovery]
        · have hbytes : d'.cc.bytesInFlight = cc.bytesInFlight := by
            rw [hevent, congestionEvent, if_pos hrecovery]
          have hcc : d.cc.counting cc.bytesInFlight = cc := hsame.symm
          rw [hbytes, hcc, hevent]
  | dropped unackedBytes =>
    cases hhandle
    exact .inl rfl

/-- Along every run the window is at least the minimum. -/
theorem minimumWindow_le {es : List Event} {d : Driven Reno}
    (hrun : Lib.run step ⟨new, 0⟩ es = some d) :
    minimumWindow ≤ d.cc.congestionWindow := by
  refine Lib.run_invariant (I := fun d => minimumWindow ≤ d.cc.congestionWindow) ?_ (by decide) hrun
  intro d e d' hmin hstep
  rcases step_cases hstep with hsame | ⟨packet, _, _, _, _, _, _, -, -, heq⟩ | ⟨p, now, -, heq⟩
  · rwa [hsame.window]
  · have hgrow := le_grow (d.cc.counting d'.cc.bytesInFlight) packet.size
    rw [heq]
    exact hmin.trans hgrow
  · rw [heq]
    exact (@congestionEvent_window (d.cc.counting d'.cc.bytesInFlight) p.time now hmin).1

/-- While no recovery period begins, the last one is the current one. -/
theorem start_of_run {es : List Event} {d d' : Driven Reno} (hrun : Lib.run step d es = some d')
    (hno : Lib.AllSteps step (fun d e => ∀ p now d', step d e = some d' →
      ¬ BeginsRecovery d e p now d') d es) :
    d'.cc.congestionRecoveryStartTime = d.cc.congestionRecoveryStartTime := by
  have halways := Lib.always_of_step (I := fun s : Driven Reno =>
    s.cc.congestionRecoveryStartTime = d.cc.congestionRecoveryStartTime) ?_ rfl hno
  · exact halways.last hrun
  · intro s e s' hstart hnone hstep
    rcases step_cases hstep with hsame | ⟨packet, _, _, _, _, _, _, -, -, heq⟩ | ⟨p, now,
      hbegins, -⟩
    · rwa [hsame.start]
    · rw [heq, grow_start]
      exact hstart
    · exact absurd hbegins (hnone p now s' hstep)

/-- Reno reduces at most once per round trip and never below the floor. In every reachable state the
window is at least the minimum. Losses of packets that were sent before the recovery period began
change neither the window nor the threshold, acks of such packets do not change the window. The
window decreases only where a recovery period begins, and the next one begins with the loss of a
packet that was sent after this one began. -/
theorem reduces_once {es : List Event} {d : Driven Reno}
    (hrun : Lib.run step ⟨new, 0⟩ es = some d) :
    minimumWindow ≤ d.cc.congestionWindow ∧ ∀ e d', step d e = some d' →
      (∀ pkts epoch srtt now, e = .lost pkts epoch srtt now →
        (∀ p ∈ pkts, p.inFlight → inCongestionRecovery d.cc.congestionRecoveryStartTime p.time) →
        d'.cc.congestionWindow = d.cc.congestionWindow ∧ d'.cc.ssthresh = d.cc.ssthresh) ∧
      (∀ packet srtt minRtt latestRtt appLimited epoch now,
        e = .acked packet srtt minRtt latestRtt appLimited epoch now →
        inCongestionRecovery d.cc.congestionRecoveryStartTime packet.time →
        d'.cc.congestionWindow = d.cc.congestionWindow) ∧
      (d'.cc.congestionWindow < d.cc.congestionWindow → ∃ p now, BeginsRecovery d e p now d') ∧
      ∀ p now, BeginsRecovery d e p now d' → ∀ es' d₁ e' d₂ p' now', Lib.run step d' es' = some d₁ →
        Lib.AllSteps step (fun s e => ∀ p now s', step s e = some s' →
          ¬ BeginsRecovery s e p now s') d' es' →
        BeginsRecovery d₁ e' p' now' d₂ → now < p'.time := by
  refine ⟨minimumWindow_le hrun, fun e d' hstep => ⟨?_, ?_, ?_, ?_⟩⟩
  · -- losses from before recovery started
    rintro pkts epoch srtt now rfl hbefore
    rcases step_cases hstep with hsame | ⟨_, _, _, _, _, _, _, he, -, -⟩ | ⟨p, _, hbegins, -⟩
    · exact ⟨hsame.window, hsame.threshold⟩
    · cases he
    · obtain ⟨_, _, _, he, hp, hflight⟩ := hbegins.lost
      cases he
      exact absurd (hbefore p hp hflight) hbegins.after
  · -- an ack of a packet from before recovery started
    rintro packet srtt minRtt latestRtt appLimited epoch now rfl hbefore
    rcases step_cases hstep with hsame | ⟨_, _, _, _, _, _, _, he, hafter, -⟩ | ⟨p, _, hbegins, -⟩
    · exact hsame.window
    · cases he
      exact absurd hbefore hafter
    · obtain ⟨_, _, _, he, -, -⟩ := hbegins.lost
      cases he
  · -- only losses make the window smaller
    intro hless
    rcases step_cases hstep with hsame | ⟨packet, _, _, _, _, _, _, -, -, heq⟩ | ⟨p, now,
      hbegins, -⟩
    · exact absurd hless (not_lt.mpr hsame.window.ge)
    · have hgrow := le_grow (d.cc.counting d'.cc.bytesInFlight) packet.size
      rw [heq] at hless
      exact absurd hless (not_lt.mpr hgrow)
    · exact ⟨p, now, hbegins⟩
  · -- no reduction comes in between, so recovery started with the first one
    intro p now hbegins es' d₁ e' d₂ p' now' hrun' hno hbegins'
    have hstart := (start_of_run hrun' hno).trans hbegins.start
    by_contra hle
    exact hbegins'.after ⟨now, hstart, not_lt.mp hle⟩

/-- A packet that is sent at 0 and lost at 5 halves the window. The loss of another one that was
sent at 3 leaves it as it is. -/
theorem reduces_once_lost :
    let pkt (n time : ℕ) : Sent := ⟨n, [], time, 1200, true, true, .none⟩
    ∀ d', step ⟨⟨7260, 1200, some 5, 7260⟩, 1⟩ (.lost [pkt 1 3] .application 1 6) = some d' →
      d'.cc.congestionWindow = 7260 ∧ d'.cc.ssthresh = 7260 :=
  let pkt (n time : ℕ) : Sent := ⟨n, [], time, 1200, true, true, .none⟩
  fun d' hstep =>
    ((@reduces_once [.sent (pkt 0 0) 0, .sent (pkt 1 3) 3, .lost [pkt 0 0] .application 1 5]
      ⟨⟨7260, 1200, some 5, 7260⟩, 1⟩ (by decide)).2 _ d' hstep).1 [pkt 1 3] .application 1 6 rfl
        (by decide)

end Reno

end Dtp.Cc
