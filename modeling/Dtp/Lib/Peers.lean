import Dtp.Lib.Runs

/-!
# Two peers over a network

Two peers take steps in any order. What a peer has sent stays on the wire: the network may
deliver it late, more than once, in another order or never, but it delivers nothing that was not
sent. A peer is reasoned about by a contract with the other one: what it sends is true, as
the states of the two are, and remains so; and as long as it receives only what is true, it knows
what it should about the state of the other one.

## Main definitions

* `Peer` — how a peer steps, and which messages a step takes from the other peer and sends
* `Link`, `Link.step` — two peers and what they have sent
* `Peer.Contract` — the conditions under which two peers can rely on each other

## Main results

* `Peer.Contract.run` — what the contract promises holds in every run
-/

namespace Dtp.Lib

/-- The two ends of a link. -/
inductive Side
  | left
  | right
  deriving DecidableEq, Repr

/-- The peer on the other side. -/
def Side.other : Side → Side
  | left => right
  | right => left

@[simp] theorem Side.other_other (side : Side) : side.other.other = side := by cases side <;> rfl

theorem Side.eq_or_eq_other (side i : Side) : i = side ∨ i = side.other := by
  cases side <;> cases i <;> first | exact .inl rfl | exact .inr rfl

theorem Side.other_ne (side : Side) : side.other ≠ side := by cases side <;> exact Side.noConfusion

/-- A peer: its step function, the messages of the other peer that a label delivers, and the
messages that a state has sent by its last step. -/
structure Peer (σ ι μ : Type*) where
  step : σ → ι → Option σ
  delivers : ι → List μ
  sends : σ → List μ

/-- Two peers, and everything that they have sent. -/
structure Link (σ μ : Type*) where
  state : Side → σ
  wire : Side → List μ

section Link

variable {σ ι μ : Type*} [DecidableEq μ]

/-- The start: nothing is sent but by the first states themselves. -/
def Link.start (P : Peer σ ι μ) (s : Side → σ) : Link σ μ where
  state := s
  wire side := P.sends (s side)

/-- One side takes a step, in which it receives only what the other side has sent. -/
def Link.step (P : Peer σ ι μ) (l : Link σ μ) (label : Side × ι) : Option (Link σ μ) :=
  if ∀ m ∈ P.delivers label.2, m ∈ l.wire label.1.other then
    (P.step (l.state label.1) label.2).map fun s =>
      { state := Function.update l.state label.1 s
        wire := Function.update l.wire label.1 (l.wire label.1 ++ P.sends s) }
  else none

variable {P : Peer σ ι μ} {l l' : Link σ μ} {side : Side} {i : ι}

theorem Link.step_eq_some (h : l.step P (side, i) = some l') :
    (∀ m ∈ P.delivers i, m ∈ l.wire side.other) ∧ ∃ s, P.step (l.state side) i = some s ∧
      l' = { state := Function.update l.state side s
             wire := Function.update l.wire side (l.wire side ++ P.sends s) } := by
  unfold Link.step at h
  split_ifs at h with hsent
  obtain ⟨s, hs, rfl⟩ := Option.map_eq_some_iff.mp h
  exact ⟨hsent, s, hs, rfl⟩

end Link

/-- What two peers can rely on: an invariant `I` of each of them, what makes a message `T`rue,
given the states of its sender and of its receiver, and what a state `K`nows about the other
peer. -/
structure Peer.Contract {σ ι μ : Type*} (P : Peer σ ι μ) (I : σ → Prop) (T : σ → σ → μ → Prop)
    (K : σ → σ → Prop) : Prop where
  /-- What a peer sends is true. -/
  sends : ∀ s t, I s → I t → K s t → K t s → ∀ m ∈ P.sends s, T s t m
  /-- A step that receives only what is true keeps the invariant, what is true, and what both
  peers know. -/
  step : ∀ s t i s', I s → I t → K s t → K t s → (∀ m ∈ P.delivers i, T t s m) →
    P.step s i = some s' → I s' ∧ K s' t ∧ K t s' ∧ ∀ m, (T s t m → T s' t m) ∧ (T t s m → T t s' m)

namespace Peer.Contract

variable {σ ι μ : Type*} {P : Peer σ ι μ} {I : σ → Prop} {T : σ → σ → μ → Prop}
  {K : σ → σ → Prop}

/-- What the contract promises about a link: everything that was sent is true. -/
structure Holds (_ : P.Contract I T K) (l : Link σ μ) : Prop where
  inv : ∀ side, I (l.state side)
  said : ∀ side, ∀ m ∈ l.wire side, T (l.state side) (l.state side.other) m
  knows : ∀ side, K (l.state side) (l.state side.other)

variable (h : P.Contract I T K)

theorem start {s : Side → σ} (hI : ∀ side, I (s side)) (hK : ∀ side, K (s side) (s side.other)) :
    h.Holds (.start P s) := by
  refine ⟨hI, fun side => ?_, hK⟩
  have hback := hK side.other
  rw [Side.other_other] at hback
  exact h.sends _ _ (hI side) (hI side.other) (hK side) hback

variable [DecidableEq μ]

include h

/-- What one side does makes nothing untrue. -/
theorem holds_step {l l' : Link σ μ} {label : Side × ι} (hl : h.Holds l)
    (hstep : l.step P label = some l') : h.Holds l' := by
  obtain ⟨side, i⟩ := label
  obtain ⟨hsent, s, hs, rfl⟩ := Link.step_eq_some hstep
  have hback := hl.knows side.other
  have hsaid := hl.said side.other
  rw [Side.other_other] at hback hsaid
  obtain ⟨hI, hK, hK', hT⟩ := h.step _ _ i s (hl.inv side) (hl.inv side.other) (hl.knows side) hback
    (fun m hm => hsaid m (hsent m hm)) hs
  refine ⟨fun j => ?_, fun j m hm => ?_, fun j => ?_⟩
  · rcases side.eq_or_eq_other j with rfl | rfl
    · simpa only [Function.update_self] using hI
    · simpa only [Function.update_of_ne side.other_ne] using hl.inv side.other
  · rcases side.eq_or_eq_other j with rfl | rfl
    · simp only [Function.update_self, Function.update_of_ne j.other_ne, List.mem_append] at hm ⊢
      rcases hm with hold | hnew
      · exact (hT m).1 (hl.said j m hold)
      · exact h.sends s _ hI (hl.inv j.other) hK hK' m hnew
    · simp only [Side.other_other, Function.update_self,
        Function.update_of_ne side.other_ne] at hm ⊢
      exact (hT m).2 (hsaid m hm)
  · rcases side.eq_or_eq_other j with rfl | rfl
    · simpa only [Function.update_self, Function.update_of_ne j.other_ne] using hK
    · simpa only [Side.other_other, Function.update_self,
        Function.update_of_ne side.other_ne] using hK'

/-- In every run everything that was sent is true, and the peers know of each other what they
should. -/
theorem run {l l' : Link σ μ} {labels : List (Side × ι)} (hl : h.Holds l)
    (hrun : Lib.run (Link.step P) l labels = some l') : h.Holds l' :=
  run_invariant (fun _ _ _ hI hstep => h.holds_step hI hstep) hl hrun

end Peer.Contract

end Dtp.Lib
