import Dtp.Written

/-!
# Sending lost data again

`send` first queues again the data of lost packets. A chunk of a stream that has ended
meanwhile keeps the `fin` flag that it was sent with: if it was sent before the stream
ended, at the offset where it then ended, it is refused, and the frames that follow it
are dropped. Every other chunk is queued.

## Main definitions

* `Connection.Visited` — the states that calls pass through
* `Connection.Retransmits` — taking back the lost frames succeeds, and queues their data
* `Connection.FinCarried` — the lost frames that end a stream say so

## Main results

* `Connection.retransmits_iff` — the one holds exactly if the other does
-/

namespace Dtp

open Lib (Program run)

/-- A state that calls pass through, from a new connection on. -/
def Connection.Visited (c : Connection) : Prop :=
  ∃ config isServer afterRetry now, (Connection.new config isServer afterRetry now).Reaches c

/-- Reachable states are visited. -/
theorem Connection.Reachable.visited {c : Connection} (h : c.Reachable) : c.Visited := by
  obtain ⟨config, isServer, afterRetry, now, calls, hrun⟩ := h
  refine ⟨config, isServer, afterRetry, now, ?_⟩
  refine Lib.run_invariant (I := fun c => Connection.Reaches _ c) ?_
    (refl_of Connection.Reaches _) hrun
  exact fun c call c' hc hcall => trans_of Connection.Reaches hc (Call.reaches hcall)

/-- Visited states are sound. -/
theorem Connection.Visited.sound {c : Connection} (h : c.Visited) :
    ∃ d, Packing.Sound ⟨c, d⟩ ∧ Packing.CryptoOpen ⟨c, d⟩ := by
  obtain ⟨config, isServer, afterRetry, now, h⟩ := h
  obtain ⟨d, actions, hrun⟩ := h (.new 0)
  refine ⟨d, Lib.run_invariant (I := fun p => p.Sound ∧ p.CryptoOpen) ?_
    (new_sound config isServer afterRetry now) hrun⟩
  exact fun _ _ _ hI hstep =>
    ⟨(Action.effect hstep).sound hI.1, (Action.effect hstep).cryptoOpen hI.2⟩

namespace SendBuf

/-- Nothing that was queued is taken away. -/
structure Refilled (s s' : SendBuf) : Prop where
  finOff : s'.finOff = s.finOff
  isShutdown : s'.isShutdown = s.isShutdown
  ackOff : s'.ackOff = s.ackOff
  data : ∀ b ∈ s.data.toList, b ∈ s'.data.toList

theorem Refilled.refl (s : SendBuf) : s.Refilled s := ⟨rfl, rfl, rfl, fun _ => id⟩

/-- What comes back refills the buffer. -/
theorem Stored.refilled {s s' : SendBuf} {buf : RangeBuf} (hbuf : s.Fits buf)
    (h : Stored s buf s') : s.Refilled s' :=
  ⟨hbuf.finOff_eq h, h.rest.isShutdown, h.rest.ackOff, fun b hb => (h.data b).mpr (.inl hb)⟩

end SendBuf

namespace Connection

/-- The same streams are live, and nothing that was queued is taken away. -/
def Refilled (c c' : Connection) : Prop :=
  ∀ id, Option.Rel (fun s s' : Stream => s.send.Refilled s'.send) (c.streams.streams id)
    (c'.streams.streams id)

/-- The streams stay. -/
theorem refilled_of_eq {c c' : Connection} (h : c'.streams.streams = c.streams.streams) :
    c.Refilled c' := by
  intro id
  rw [h]
  cases c.streams.streams id with
  | none => exact .none
  | some s => exact .some (.refl _)

/-- Streams that are there stay. -/
theorem Refilled.live {c c' : Connection} (h : c.Refilled c') {id : ℕ} {s : Stream}
    (hs : c.streams.streams id = some s) :
    ∃ s', c'.streams.streams id = some s' ∧ s.send.Refilled s'.send := by
  have := h id
  rw [hs] at this
  cases hs' : c'.streams.streams id with
  | none => rw [hs'] at this; cases this
  | some s' =>
    rw [hs'] at this
    cases this with
    | some hsend => exact ⟨s', rfl, hsend⟩

/-- Streams that are there were there. -/
theorem Refilled.of_live {c c' : Connection} (h : c.Refilled c') {id : ℕ} {s' : Stream}
    (hs' : c'.streams.streams id = some s') :
    ∃ s, c.streams.streams id = some s ∧ s.send.Refilled s'.send := by
  have := h id
  rw [hs'] at this
  cases hs : c.streams.streams id with
  | none => rw [hs] at this; cases this
  | some s =>
    rw [hs] at this
    cases this with
    | some hsend => exact ⟨s, rfl, hsend⟩

theorem Refilled.trans {c c' c'' : Connection} (h : c.Refilled c') (h' : c'.Refilled c'') :
    c.Refilled c'' := by
  intro id
  cases hs : c.streams.streams id with
  | none =>
    have hnone : c'.streams.streams id = none := by
      by_contra hsome
      obtain ⟨s', hs'⟩ := Option.ne_none_iff_exists'.mp hsome
      obtain ⟨s, hs'', -⟩ := h.of_live hs'
      rw [hs] at hs''
      cases hs''
    have := h' id
    rwa [hnone] at this
  | some s =>
    obtain ⟨s', hs', hsend⟩ := h.live hs
    obtain ⟨s'', hs'', hsend'⟩ := h'.live hs'
    rw [hs'']
    exact .some ⟨hsend'.finOff.trans hsend.finOff, hsend'.isShutdown.trans hsend.isShutdown,
      hsend'.ackOff.trans hsend.ackOff, fun b hb => hsend'.data b (hsend.data b hb)⟩

/-- One buffer is refilled. -/
theorem refilled_of_updated {c c' : Connection} {id : ℕ} {s s' : Stream} {queued : Bool}
    (live : c.streams.streams id = some s) (updated : c.streams.Updated id s' queued c'.streams)
    (h : s.send.Refilled s'.send) : c.Refilled c' := by
  intro i
  rw [updated.streams]
  rcases eq_or_ne i id with rfl | hne
  · rw [StreamMap.put_streams_self, live]
    exact .some h
  · rw [StreamMap.put_streams_of_ne _ _ hne]
    cases c.streams.streams i with
    | none => exact .none
    | some s => exact .some (.refl _)

/-- Among the frames `lost`, those with data of a live stream up to its final offset
carry the `fin` flag. -/
def FinCarried (c : Connection) (lost : List Frame) : Prop :=
  ∀ id data, .stream id data ∈ lost → ∀ s, c.streams.streams id = some s →
    s.send.finOff = some data.maxOff → data.fin = true

/-- Every byte of the frames `lost` that belongs to a live stream which is not shut down,
and is not acked together with all bytes before it, is queued in `c'`. -/
def Requeued (c : Connection) (lost : List Frame) (c' : Connection) : Prop :=
  ∀ id data, .stream id data ∈ lost → ∀ s, c.streams.streams id = some s →
    s.send.isShutdown = false → ∀ x, data.Covers x → s.send.ackOff ≤ x →
      ∃ s', c'.streams.streams id = some s' ∧ ∃ b ∈ s'.send.data.toList,
        b.Covers x ∧ b.data[x - b.off]? = data.data[x - data.off]?

/-- Taking back the lost frames of an epoch succeeds, and queues their data again. -/
def Retransmits (c : Connection) (epoch : Epoch) : Prop :=
  ∃ c', drainLost epoch c = .ok () c' ∧ c.Requeued (c.recovery.lost epoch) c'

/-- Refilling does not change which FIN is carried. -/
theorem Refilled.finCarried_iff {c c' : Connection} (h : c.Refilled c') (lost : List Frame) :
    c'.FinCarried lost ↔ c.FinCarried lost := by
  constructor
  · intro hfin id data hmem s hs heq
    obtain ⟨s', hs', hsend⟩ := h.live hs
    exact hfin id data hmem s' hs' (hsend.finOff.trans heq)
  · intro hfin id data hmem s' hs' heq
    obtain ⟨s, hs, hsend⟩ := h.of_live hs'
    exact hfin id data hmem s hs (hsend.finOff.symm.trans heq)

private theorem Refilled.requeued {c c' c'' : Connection} (h : c.Refilled c') {lost : List Frame}
    (hreq : c'.Requeued lost c'') : c.Requeued lost c'' := by
  intro id data hmem s hs hshut x hx hack
  obtain ⟨s', hs', hsend⟩ := h.live hs
  exact hreq id data hmem s' hs' (hsend.isShutdown.trans hshut) x hx (hsend.ackOff.le.trans hack)

/-- Frames without data of a stream ask for nothing. -/
theorem finCarried_other {c c' : Connection} {frame : Frame}
    (h : ∀ id data, frame ≠ .stream id data) :
    c.FinCarried [frame] ∧ c.Requeued [frame] c' :=
  ⟨fun id data hmem => absurd (List.mem_singleton.mp hmem).symm (h id data),
    fun id data hmem => absurd (List.mem_singleton.mp hmem).symm (h id data)⟩

/-- A stored chunk is queued as it is, if any of it is to be sent again. -/
theorem requeued_of_stored {c c' : Connection} {id : ℕ} {data : RangeBuf} {s s' : Stream}
    (hs : c.streams.streams id = some s) (hs' : c'.streams.streams id = some s')
    (stored : SendBuf.Stored s.send data s'.send) : c.Requeued [.stream id data] c' := by
  intro i d hmem s₀ hs₀ hshut x hx hack
  cases List.mem_singleton.mp hmem
  rw [hs] at hs₀
  cases hs₀
  refine ⟨s', hs', data, (stored.data data).mpr (.inr ⟨rfl, hshut, ?_, hx.not_isEmpty⟩), hx, rfl⟩
  exact hack.trans_lt hx.2

/-- What taking back one lost frame does: it fails only for a refused chunk. -/
theorem takeLost_ends {c : Connection} {d : Draft} (hsound : Packing.Sound ⟨c, d⟩)
    (hcrypto : Packing.CryptoOpen ⟨c, d⟩) {epoch : Epoch} {frame : Frame} {frames : List Frame}
    (lost : c.recovery.lost epoch = frame :: frames) :
    (takeLost epoch).Ends c
      (fun _ c' => c'.recovery.lost epoch = frames ∧ c.Refilled c' ∧ c.FinCarried [frame] ∧
        c.Requeued [frame] c')
      fun _ _ => ¬ c.FinCarried [frame] := by
  have hlost : frames = Epoch.update c.recovery.lost epoch frames epoch :=
    (Epoch.update_same ..).symm
  -- frames without stream data carry no FIN
  have hother (c' : Connection) (h : ∀ id data, frame ≠ .stream id data)
      (hstreams : c'.streams.streams = c.streams.streams) (hc' : c'.recovery.lost epoch = frames) :
      c'.recovery.lost epoch = frames ∧ c.Refilled c' ∧ c.FinCarried [frame] ∧
        c.Requeued [frame] c' := ⟨hc', refilled_of_eq hstreams, finCarried_other h⟩
  unfold takeLost drainLostFrame
  simp only [Program.ends_bind, Program.ends_get, lost, Program.ends_set]
  cases frame with
  | crypto data =>
    -- the handshake data does not end, so no chunk is refused
    have hopen : (c.pktNumSpaces epoch).cryptoStream.send.finOff = none := hcrypto.1.1 epoch
    obtain ⟨send, hpush, -⟩ := SendBuf.push_ok (s := (c.pktNumSpaces epoch).cryptoStream.send)
      (by simp [SendBuf.Refuses, hopen] : ¬ (c.pktNumSpaces epoch).cryptoStream.send.Refuses data)
    simp only [setRecovery, hpush, Program.ofExcept_ok, pure_bind, Program.ends_set]
    exact hother _ (by simp) rfl hlost.symm
  | blockInfo id _ _ _ _ =>
    simp only [setRecovery]
    cases live : c.streams.streams id with
    | none => exact hother _ (by simp) rfl hlost.symm
    | some s =>
      refine ⟨hlost.symm, ?_, finCarried_other (by simp)⟩
      exact refilled_of_updated live (c.streams.put_updated id _) ⟨rfl, rfl, rfl, fun _ hb => hb⟩
  | stream id data =>
    simp only [setRecovery]
    cases live : c.streams.streams id with
    | none =>
      refine ⟨hlost.symm, refilled_of_eq rfl, fun i d hmem s hs => ?_, fun i d hmem s hs => ?_⟩
      all_goals
        cases List.mem_singleton.mp hmem
        rw [live] at hs
        cases hs
    | some s =>
      have hfits := hsound.fits_of_lost (lost ▸ List.mem_cons_self) live
      have wf := hsound.wf id s live
      simp only [Program.ends_bind, Program.ends_set, Program.ends_ofExcept]
      refine ⟨fun send hpush => ?_, fun e hpush => ?_⟩
      · -- the chunk comes back, unless its end contradicts the final size
        obtain ⟨haccepts, hstored⟩ := SendBuf.push_spec hpush
        have updated := (c.streams.put_updated id { s with send := send }).pushFlushableIf
          (({ s with send := send : Stream }.isFlushable || (data.isEmpty && data.fin)) &&
            !s.isFlushable)
        refine ⟨hlost.symm, refilled_of_updated live updated (hstored.refilled hfits), ?_, ?_⟩
        · intro i d hmem s₀ hs₀ heq
          cases List.mem_singleton.mp hmem
          rw [live] at hs₀
          cases hs₀
          by_contra hfin
          exact haccepts ((hfits.refuses_iff wf).mpr ⟨heq, by simpa using hfin⟩)
        · have hs' := congrFun updated.streams id
          rw [StreamMap.put_streams_self] at hs'
          exact requeued_of_stored live hs' hstored
      · intro hfin
        -- a chunk that is refused ends the stream without FIN
        obtain ⟨heq, hnot⟩ := (hfits.refuses_iff wf).mp (by
          by_contra haccepts
          obtain ⟨s', hs', -⟩ := SendBuf.push_ok haccepts
          rw [hpush] at hs'
          cases hs')
        rw [hfin id data (List.mem_singleton.mpr rfl) s live heq] at hnot
        cases hnot
  | ack _ _ _ => exact hother _ (by simp) rfl hlost.symm
  | handshakeDone => exact hother _ (by simp) rfl hlost.symm
  | _ => exact hother _ (by simp) rfl hlost.symm

/-- Every frame carries its own FIN. -/
theorem finCarried_cons {c : Connection} {frame : Frame} {frames : List Frame} :
    c.FinCarried (frame :: frames) ↔ c.FinCarried [frame] ∧ c.FinCarried frames := by
  refine ⟨fun h => ⟨fun id data hmem => h id data ?_, fun id data hmem => h id data ?_⟩,
    fun ⟨h, h'⟩ id data hmem => ?_⟩
  · exact List.mem_cons.mpr (.inl (List.mem_singleton.mp hmem))
  · exact List.mem_cons_of_mem _ hmem
  · rcases List.mem_cons.mp hmem with rfl | hmem
    · exact h id data (List.mem_singleton.mpr rfl)
    · exact h' id data hmem

/-- Frames are queued one after the other. -/
theorem Requeued.cons {c c' : Connection} {frame : Frame} {frames : List Frame}
    (h : c.Requeued [frame] c') (h' : c.Requeued frames c') : c.Requeued (frame :: frames) c' := by
  intro id data hmem
  rcases List.mem_cons.mp hmem with rfl | hmem
  · exact h id data (List.mem_singleton.mpr rfl)
  · exact h' id data hmem

/-- What is queued stays so while others are. -/
theorem Requeued.refilled {c c' c'' : Connection} {lost : List Frame} (h : c.Requeued lost c')
    (hrefilled : c'.Refilled c'') : c.Requeued lost c'' := by
  intro id data hmem s hs hshut x hx hack
  obtain ⟨s', hs', b, hb, hcovers, hbyte⟩ := h id data hmem s hs hshut x hx hack
  obtain ⟨s'', hs'', hsend⟩ := hrefilled.live hs'
  exact ⟨s'', hs'', b, hsend.data b hb, hcovers, hbyte⟩

/-- The loop over the lost frames. -/
theorem takeLosts_ends {epoch : Epoch} (frames : List Frame) {c : Connection} {d : Draft}
    (hsound : Packing.Sound ⟨c, d⟩) (hcrypto : Packing.CryptoOpen ⟨c, d⟩)
    (lost : c.recovery.lost epoch = frames) :
    (forM frames fun _ => takeLost epoch : Program Error Connection PUnit).Ends c
      (fun _ c' => c.Refilled c' ∧ c.FinCarried frames ∧ c.Requeued frames c')
      fun _ _ => ¬ c.FinCarried frames := by
  induction frames generalizing c d with
  | nil => exact ⟨refilled_of_eq rfl, nofun, nofun⟩
  | cons frame frames ih =>
    have hhead := takeLost_ends hsound hcrypto lost
    rw [List.forM_cons, Program.ends_bind]
    refine Program.ends_iff.mpr ⟨fun _ c' hc' => ?_, fun e c' hc' hfin => ?_⟩
    · obtain ⟨lost', hrefilled, hfin, hreq⟩ := hhead.ok hc'
      have hstep : Action.step ⟨c, d⟩ (.lost epoch) = some ⟨c', d⟩ := by
        have hafter : (takeLost epoch).after c = some c' := by rw [Program.after, hc']
        change (Packing.onConn (takeLost epoch)).after ⟨c, d⟩ = _
        rw [onConn_after, hafter]
        rfl
      have heffect := Action.effect hstep
      refine (ih (heffect.sound hsound) (heffect.cryptoOpen hcrypto) lost').mono ?_ ?_
      · rintro _ c'' ⟨hrefilled', hfin', hreq'⟩
        refine ⟨hrefilled.trans hrefilled', ?_, ?_⟩
        · exact finCarried_cons.mpr ⟨hfin, (hrefilled.finCarried_iff frames).mp hfin'⟩
        · exact (hreq.refilled hrefilled').cons (hrefilled.requeued hreq')
      · intro e c'' hnot hfin'
        exact hnot ((hrefilled.finCarried_iff frames).mpr (finCarried_cons.mp hfin').2)
    · exact hhead.error hc' (finCarried_cons.mp hfin).1

/-- Lost data is sent again exactly if every lost frame that ends a stream says so. -/
theorem retransmits_iff {c : Connection} (h : c.Visited) (epoch : Epoch) :
    c.Retransmits epoch ↔ c.FinCarried (c.recovery.lost epoch) := by
  obtain ⟨d, hsound, hcrypto⟩ := h.sound
  have hloop := takeLosts_ends (c.recovery.lost epoch) hsound hcrypto rfl
  unfold Retransmits drainLost
  constructor
  · rintro ⟨c', hc', -⟩
    split at hc'
    · exact (hloop.ok ‹_›).2.1
    · cases hc'
  · intro hfin
    obtain ⟨c', hc'⟩ : ∃ c', (forM (c.recovery.lost epoch) fun _ => takeLost epoch :
        Program Error Connection PUnit) c = .ok ⟨⟩ c' := by
      cases hc' : (forM (c.recovery.lost epoch) fun _ => takeLost epoch :
        Program Error Connection PUnit) c with
      | ok _ c' => exact ⟨c', rfl⟩
      | error e c' => exact absurd hfin (hloop.error hc')
    exact ⟨c', by rw [hc'], (hloop.ok hc').2.2⟩

/-- A client that sent a byte of its stream 2, and lost it after it had ended the stream
without more data. -/
def endedLater : Option Connection :=
  Sample.client (.basic {})
    [Sample.write 2 [7] false, Sample.send 1, Sample.write 2 [] true, Sample.send 2,
      Sample.recv 0 [.ack 0 0 (Sample.range 1 2)] 200]

/-- A client that sent two bytes of its stream 2, and lost the first. -/
def stillOpen : Option Connection :=
  Sample.client (.basic {})
    [Sample.write 2 [7] false, Sample.send 1, Sample.write 2 [8] false, Sample.send 2,
      Sample.recv 0 [.ack 0 0 (Sample.range 1 2)] 200]

/-- The lost byte of a stream that ended later is refused. -/
theorem not_retransmits : ¬ ∀ c : Connection, c.Reachable → ∀ epoch, c.Retransmits epoch := by
  have hrun : endedLater.any (fun c => (drainLost .application).failsWith c fun _ _ => true) =
      true := by
    decide +kernel
  obtain ⟨c, hc, hfails⟩ := (Option.any_eq_true _ _).mp hrun
  obtain ⟨e, c₁, hfail, -⟩ := Program.failsWith_iff.mp hfails
  intro hall
  obtain ⟨c', hok, -⟩ := hall c (Sample.client_reachable hc) .application
  cases hok.symm.trans hfail

/-- Whether a frame has no data of a stream, or its data ends elsewhere than the stream. -/
def endsElsewhere (c : Connection) : Frame → Bool
  | .stream id data => (c.streams.streams id).all fun s => decide (s.send.finOff ≠ some data.maxOff)
  | _ => true

theorem retransmits_stillOpen : ∃ c, stillOpen = some c ∧ c.recovery.lost .application ≠ [] ∧
    c.Retransmits .application := by
  have hrun : stillOpen.any (fun c => !(c.recovery.lost .application).isEmpty &&
      (c.recovery.lost .application).all c.endsElsewhere) = true := by decide +kernel
  obtain ⟨c, hc, h⟩ := (Option.any_eq_true _ _).mp hrun
  simp only [Bool.and_eq_true, Bool.not_eq_true'] at h
  obtain ⟨hlost, hcarried⟩ := h
  have hvisited := (Sample.client_reachable hc).visited
  refine ⟨c, hc, by simpa using hlost, (retransmits_iff hvisited .application).mpr ?_⟩
  intro id data hmem s hs heq
  have := List.all_eq_true.mp hcarried _ hmem
  simp [endsElsewhere, hs, heq] at this

end Connection

end Dtp
