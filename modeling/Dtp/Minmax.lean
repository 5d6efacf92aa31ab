import Mathlib.Data.Nat.Basic
import Dtp.Lib.WindowedFilter

/-!
# Windowed minima and maxima

The filter that tracks the smallest or the largest of a stream of measurements over a window of
time. BBR has a second one of its own, which tracks the largest only and keeps its window.

## Main definitions

* `Minmax.runningMin`, `Minmax.runningMax` — a measurement for the generic filter
* `Bbr.Minmax.minmaxUpmax` — a measurement for the filter of BBR

## Main results

* `Minmax.runningMin_eq`, `Minmax.runningMax_eq`, `Bbr.Minmax.minmaxUpmax_eq` — all three are the
  same algorithm
* `Minmax.estimates_kept` — order, origin and age of the estimates, for streams of any length
-/

namespace Dtp

open Lib (Sample Estimates)

/-- The estimates of a filter, the best first. -/
abbrev Minmax (α : Type) := Estimates ℕ α

/-- A measurement, and the window for which it is made. -/
structure Measurement (α : Type) where
  win : ℕ
  time : ℕ
  meas : α

/-- The sample that a measurement is kept as. -/
abbrev Measurement.sample {α : Type} (m : Measurement α) : Sample ℕ α := ⟨m.time, m.meas⟩

namespace Minmax

variable {α : Type}

/-- Resets the estimates to the given value. -/
def reset (_ : Minmax α) (time : ℕ) (meas : α) : α × Minmax α :=
  let val : Sample ℕ α := ⟨time, meas⟩
  (val.value, ⟨val, val, val⟩)

/-- As time advances, updates the 1st, 2nd and 3rd estimates. Dividing a duration rounds as `divF32`
does. -/
def subwinUpdate (divF32 : ℕ → ℕ → ℕ) (f : Minmax α) (win time : ℕ) (meas : α) : α × Minmax α :=
  let val : Sample ℕ α := ⟨time, meas⟩
  let deltaTime := time - f.best.time
  let f : Minmax α :=
    if win < deltaTime then
      -- Passed the entire window without a new val. The 2nd estimate may also be outside of it.
      let f : Minmax α := ⟨f.second, f.third, val⟩
      if win < time - f.best.time then ⟨f.second, f.third, val⟩ else f
    else if f.second.time = f.best.time ∧ divF32 win 4 < deltaTime then
      { f with third := val, second := val }
    else if f.third.time = f.second.time ∧ divF32 win 2 < deltaTime then
      { f with third := val }
    else f
  (f.best.value, f)

/-- Updates the min estimate based on the given measurement, and returns it. -/
def runningMin [LE α] [DecidableLE α] (divF32 : ℕ → ℕ → ℕ) (f : Minmax α) (win time : ℕ)
    (meas : α) :
    α × Minmax α :=
  let val : Sample ℕ α := ⟨time, meas⟩
  let deltaTime := time - f.third.time
  if val.value ≤ f.best.value ∨ win < deltaTime then f.reset time meas
  else
    let f : Minmax α :=
      if val.value ≤ f.second.value then { f with third := val, second := val }
      else if val.value ≤ f.third.value then { f with third := val }
      else f
    f.subwinUpdate divF32 win time meas

/-- Updates the max estimate based on the given measurement, and returns it. -/
def runningMax [LE α] [DecidableLE α] (divF32 : ℕ → ℕ → ℕ) (f : Minmax α) (win time : ℕ)
    (meas : α) :
    α × Minmax α :=
  let val : Sample ℕ α := ⟨time, meas⟩
  let deltaTime := time - f.third.time
  if f.best.value ≤ val.value ∨ win < deltaTime then f.reset time meas
  else
    let f : Minmax α :=
      if f.second.value ≤ val.value then { f with third := val, second := val }
      else if f.third.value ≤ val.value then { f with third := val }
      else f
    f.subwinUpdate divF32 win time meas

variable {divF32 : ℕ → ℕ → ℕ}

/-- The window has passed the time. -/
abbrev Expired (win now t : ℕ) : Prop := win < now - t

/-- What passes with time is the same for minima and maxima. -/
theorem subwinUpdate_eq (f : Minmax α) (win time : ℕ) (meas : α) :
    (f.subwinUpdate divF32 win time meas).2 =
      f.advance (Expired win time) (Expired (divF32 win 4) time) (Expired (divF32 win 2) time)
        ⟨time, meas⟩ := rfl

/-- The running minimum is the windowed filter. -/
theorem runningMin_eq [LE α] [DecidableLE α] (divF32 : ℕ → ℕ → ℕ) (f : Minmax α)
    (m : Measurement α) :
    (f.runningMin divF32 m.win m.time m.meas).2 =
      f.observe (Expired m.win m.sample.time) (Expired (divF32 m.win 4) m.sample.time)
        (Expired (divF32 m.win 2) m.sample.time) (· ≤ ·) m.sample := by
  unfold runningMin Estimates.observe
  dsimp only
  by_cases hreset : m.meas ≤ f.best.value ∨ m.win < m.time - f.third.time
  · rw [if_pos hreset, if_pos hreset]
    rfl
  · rw [if_neg hreset, if_neg hreset, subwinUpdate_eq]
    rfl

/-- The running maximum is the windowed filter, for the opposite order. -/
theorem runningMax_eq [LE α] [DecidableLE α] (divF32 : ℕ → ℕ → ℕ) (f : Minmax α)
    (m : Measurement α) :
    (f.runningMax divF32 m.win m.time m.meas).2 =
      f.observe (Expired m.win m.sample.time) (Expired (divF32 m.win 4) m.sample.time)
        (Expired (divF32 m.win 2) m.sample.time) (· ≥ ·) m.sample := by
  unfold runningMax Estimates.observe
  dsimp only
  by_cases hreset : f.best.value ≤ m.meas ∨ m.win < m.time - f.third.time
  · rw [if_pos hreset, if_pos hreset]
    rfl
  · rw [if_neg hreset, if_neg hreset, subwinUpdate_eq]
    rfl

end Minmax

/-! ### The filter of BBR -/

namespace Bbr

/-- The windowed maximum of BBR, whose times are counts of rounds. -/
structure Minmax where
  window : ℕ
  samples : Estimates ℕ ℕ

namespace Minmax

/-- A filter without measurements. -/
def new (window : ℕ) : Minmax := ⟨window, ⟨0, 0⟩, ⟨0, 0⟩, ⟨0, 0⟩⟩

/-- The best value in the window. -/
def minmaxGet (f : Minmax) : ℕ := f.samples.best.value

/-- The filter after a first measurement. -/
def minmaxReset (f : Minmax) (sample : Sample ℕ ℕ) :
    Minmax := { f with samples := ⟨sample, sample, sample⟩ }

/-- As time passes, better values get too old. -/
def minmaxSubwinUpdate (f : Minmax) (sample : Sample ℕ ℕ) : Minmax :=
  let dt := sample.time - f.samples.best.time
  if f.window < dt then
    let samples : Estimates ℕ ℕ := ⟨f.samples.second, f.samples.third, sample⟩
    if f.window < sample.time - samples.best.time then
      { f with samples := ⟨samples.second, samples.third, sample⟩ }
    else { f with samples }
  else if f.samples.second.time = f.samples.best.time ∧ f.window / 4 < dt then
    { f with samples := { f.samples with third := sample, second := sample } }
  else if f.samples.third.time = f.samples.second.time ∧ f.window / 2 < dt then
    { f with samples := { f.samples with third := sample } }
  else f

/-- A measurement of the running maximum. -/
def minmaxUpmax (f : Minmax) (now meas : ℕ) : Minmax :=
  let sample : Sample ℕ ℕ := ⟨now, meas⟩
  if f.samples.best.value = 0 ∨ f.samples.best.value ≤ sample.value ∨
      f.window < sample.time - f.samples.third.time then
    f.minmaxReset sample
  else
    let samples : Estimates ℕ ℕ :=
      if f.samples.second.value ≤ sample.value then
        { f.samples with third := sample, second := sample }
      else if f.samples.third.value ≤ sample.value then { f.samples with third := sample }
      else f.samples
    { f with samples }.minmaxSubwinUpdate sample

open Dtp.Minmax (Expired)

private theorem minmaxSubwinUpdate_eq (f : Minmax) (s : Sample ℕ ℕ) :
    f.minmaxSubwinUpdate s = ⟨f.window, f.samples.advance (Expired f.window s.time)
      (Expired (f.window / 4) s.time) (Expired (f.window / 2) s.time) s⟩ := by
  unfold minmaxSubwinUpdate Estimates.advance
  dsimp only
  split_ifs <;> rfl

/-- The filter of BBR is the running maximum: a maximum of zero is never the better one. -/
theorem minmaxUpmax_eq (f : Minmax) (now meas : ℕ) :
    f.minmaxUpmax now meas = ⟨f.window, f.samples.observe (Expired f.window now)
      (Expired (f.window / 4) now) (Expired (f.window / 2) now) (· ≥ ·) ⟨now, meas⟩⟩ := by
  unfold minmaxUpmax Estimates.observe
  dsimp only
  by_cases hreset : f.samples.best.value ≤ meas ∨ f.window < now - f.samples.third.time
  · rw [if_pos (.inr hreset), if_pos hreset]
    rfl
  · have hpos : ¬ f.samples.best.value = 0 := by omega
    rw [if_neg (not_or.mpr ⟨hpos, hreset⟩), if_neg hreset, minmaxSubwinUpdate_eq]
    rfl

@[simp] theorem minmaxUpmax_window (f : Minmax) (now meas : ℕ) :
    (f.minmaxUpmax now meas).window = f.window := by
  rw [minmaxUpmax_eq]

end Minmax

end Bbr

/-! ### Streams of measurements -/

namespace Minmax

variable {α : Type} {divF32 : ℕ → ℕ → ℕ}

/-- What a filter says after a measurement `val`, for values that `r` orders. -/
structure Sound (r : α → α → Prop) (supplied : List (Sample ℕ α)) (win : ℕ) (val : Sample ℕ α)
    (returned : α) (f : Minmax α) : Prop where
  time_le : f.best.time ≤ f.second.time ∧ f.second.time ≤ f.third.time
  value_le : r f.best.value f.second.value ∧ r f.second.value f.third.value
  supplied : ∀ s, f.Mem s → s ∈ supplied
  returned_eq : returned = f.best.value
  returned_le : r returned val.value
  in_window : f.best.time ≤ val.time ∧ val.time ≤ f.best.time + win

variable {r : α → α → Prop} [DecidableRel r] [IsTrans α r] [Std.Total r] {f f' : Minmax α}
  {observed : List (Sample ℕ α)} {last val : Sample ℕ α}

/-- The filter after one more sample, in the order of times, is sound. -/
theorem sound_observe {win quarter half : ℕ} (h : f.Kept r observed last)
    (htime : last.time ≤ val.time)
    (hobserve : f' = f.observe (Expired win val.time) (Expired quarter val.time)
      (Expired half val.time) r val) :
    Sound r (observed ++ [val]) win val f'.best.value f' := by
  have hkept : f'.Kept r (observed ++ [val]) val := by
    rw [hobserve]
    exact h.observe htime
  have hfresh : ¬ Expired win val.time f'.best.time := by
    rw [hobserve]
    exact Estimates.fresh_observe (by simp)
  have hbest := hkept.chain.best_bound
  exact
    { time_le := ⟨hkept.chain.best.time_le, hkept.chain.second.time_le⟩
      value_le := ⟨hkept.chain.best.value_le, hkept.chain.second.value_le⟩
      supplied := fun _ => hkept.mem
      returned_eq := rfl
      returned_le := hbest.value_le
      in_window := ⟨hbest.time_le, by have := hbest.time_le; omega⟩ }

/-- A stream of measurements in the order of their times, and one more. -/
theorem sound_stream {ι : Type} {start : Sample ℕ α} {step : Minmax α → ι → Minmax α}
    (sample : ι → Sample ℕ α) {win quarter half : ι → ℕ}
    (hstep : ∀ f i, step f i = f.observe (Expired (win i) (sample i).time)
      (Expired (quarter i) (sample i).time) (Expired (half i) (sample i).time) r (sample i))
    {is : List ι} {i : ι}
    (hmono : (start :: (is ++ [i]).map sample).Pairwise fun a b => a.time ≤ b.time) :
    let f := step (is.foldl step (Estimates.restart start)) i
    Sound r (start :: (is ++ [i]).map sample) (win i) (sample i) f.best.value f := by
  have hsplit : start :: (is ++ [i]).map sample = (start :: is.map sample) ++ [sample i] := by simp
  rw [hsplit] at hmono ⊢
  obtain ⟨hbefore, -, hlast⟩ := List.pairwise_append.mp hmono
  have hkept : (is.foldl step (Estimates.restart start)).Kept r ([start] ++ is.map sample)
      ((is.map sample).getLastD start) := by
    refine (Estimates.kept_restart start).foldl (fun f observed last i h htime => ?_) hbefore
    rw [hstep]
    exact h.observe htime
  exact sound_observe hkept (hlast _ List.getLastD_mem_cons _ (List.mem_singleton_self _))
    (hstep _ i)

/-- The filter after a stream of measurements for the minimum. -/
def runningMins [LE α] [DecidableLE α] (divF32 : ℕ → ℕ → ℕ) (f : Minmax α)
    (ms : List (Measurement α)) :
    Minmax α :=
  ms.foldl (fun f m => (f.runningMin divF32 m.win m.time m.meas).2) f

/-- The filter after a stream of measurements for the maximum. -/
def runningMaxs [LE α] [DecidableLE α] (divF32 : ℕ → ℕ → ℕ) (f : Minmax α)
    (ms : List (Measurement α)) :
    Minmax α :=
  ms.foldl (fun f m => (f.runningMax divF32 m.win m.time m.meas).2) f

/-- The value returned is that of the best estimate. -/
theorem runningMin_fst [LE α] [DecidableLE α] (f : Minmax α) (win time : ℕ) (meas : α) :
    (f.runningMin divF32 win time meas).1 = (f.runningMin divF32 win time meas).2.best.value := by
  unfold runningMin
  dsimp only
  split_ifs <;> rfl

private theorem runningMax_fst [LE α] [DecidableLE α] (f : Minmax α) (win time : ℕ) (meas : α) :
    (f.runningMax divF32 win time meas).1 = (f.runningMax divF32 win time meas).2.best.value := by
  unfold runningMax
  dsimp only
  split_ifs <;> rfl

end Minmax

/-- The filter of BBR after a stream of measurements. -/
def Bbr.Minmax.minmaxUpmaxs (f : Bbr.Minmax) (samples : List (Sample ℕ ℕ)) : Bbr.Minmax :=
  samples.foldl (fun f s => f.minmaxUpmax s.time s.value) f

private theorem Bbr.Minmax.minmaxUpmax_step (window : ℕ) (e : Estimates ℕ ℕ) (s : Sample ℕ ℕ) :
    ((Bbr.Minmax.mk window e).minmaxUpmax s.time s.value).samples =
      e.observe (Dtp.Minmax.Expired window s.time) (Dtp.Minmax.Expired (window / 4) s.time)
        (Dtp.Minmax.Expired (window / 2) s.time) (· ≥ ·) s := by
  rw [minmaxUpmax_eq]

/-- A stream of measurements leaves the window alone, and its estimates are those of the windowed
filter. -/
theorem Bbr.Minmax.minmaxUpmaxs_eq (f : Bbr.Minmax) (samples : List (Sample ℕ ℕ)) :
    f.minmaxUpmaxs samples = ⟨f.window, samples.foldl (fun e s =>
      (Bbr.Minmax.mk f.window e |>.minmaxUpmax s.time s.value).samples) f.samples⟩ := by
  unfold minmaxUpmaxs
  induction samples generalizing f with
  | nil => rfl
  | cons s samples ih =>
    rw [List.foldl_cons, ih, minmaxUpmax_window]
    rfl

/-- In every stream of measurements in the order of their times, from a reset filter, all three
filters are sound after each measurement. -/
theorem Minmax.sound_of_reset {α : Type} [LinearOrder α] (divF32 : ℕ → ℕ → ℕ) (f : Minmax α)
    (start : Sample ℕ α) (ms : List (Measurement α)) (m : Measurement α)
    (hmono : (start :: (ms ++ [m]).map Measurement.sample).Pairwise fun a b => a.time ≤ b.time)
    (bbr : Bbr.Minmax) (start' : Sample ℕ ℕ) (samples : List (Sample ℕ ℕ)) (s : Sample ℕ ℕ)
    (hmono' : (start' :: (samples ++ [s])).Pairwise fun a b => a.time ≤ b.time) :
    let reset := (f.reset start.time start.value).2
    let supplied := start :: (ms ++ [m]).map Measurement.sample
    let min := (reset.runningMins divF32 ms).runningMin divF32 m.win m.time m.meas
    let max := (reset.runningMaxs divF32 ms).runningMax divF32 m.win m.time m.meas
    let upmax := ((bbr.minmaxReset start').minmaxUpmaxs samples).minmaxUpmax s.time s.value
    Sound (· ≤ ·) supplied m.win m.sample min.1 min.2 ∧
      Sound (· ≥ ·) supplied m.win m.sample max.1 max.2 ∧
      Sound (· ≥ ·) (start' :: (samples ++ [s])) bbr.window s upmax.minmaxGet upmax.samples := by
  refine ⟨?_, ?_, ?_⟩
  · rw [runningMin_fst]
    exact sound_stream Measurement.sample (runningMin_eq divF32) hmono
  · rw [runningMax_fst]
    exact sound_stream Measurement.sample (runningMax_eq divF32) hmono
  · have hsound := sound_stream (fun s => s) (fun e s => Bbr.Minmax.minmaxUpmax_step bbr.window e s)
      (by rwa [List.map_id'])
    rw [List.map_id'] at hsound
    rw [Bbr.Minmax.minmaxUpmaxs_eq]
    exact hsound

/-- Three measurements of each kind, in a window of 10: the second is better than the first, and the
third comes when the second has left the window. -/
theorem Minmax.sound_of_reset_three :
    let supplied : List (Sample ℕ ℕ) := [⟨0, 7⟩, ⟨3, 5⟩, ⟨20, 6⟩]
    let min := Minmax.runningMin (fun win n => win / n)
      (runningMins (fun win n => win / n) ⟨⟨0, 7⟩, ⟨0, 7⟩, ⟨0, 7⟩⟩ [⟨10, 3, 5⟩]) 10 20 6
    Sound (· ≤ ·) supplied 10 ⟨20, 6⟩ min.1 min.2 :=
  (Minmax.sound_of_reset (fun win n => win / n) ⟨⟨0, 7⟩, ⟨0, 7⟩, ⟨0, 7⟩⟩ ⟨0, 7⟩ [⟨10, 3, 5⟩]
    ⟨10, 20, 6⟩ (by decide) (.new 10) ⟨0, 0⟩ [⟨1, 4⟩] ⟨2, 3⟩ (by decide)).1

end Dtp
