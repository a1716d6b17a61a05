import HalfDuplex.Proofs.Run

/-!
# Runs from scenarios

A `Scenario` is everything that a run is given: the sources, and for each tick what is
done to the byte source ahead of it, the reading of the timer and the inputs.  An engine
that is set up with it and ticked as long as no fault stops it makes a `Run`, so runs
can be computed.
-/

namespace HalfDuplex

/-- Timing with the shortest spans that are accepted, in which a frame of one octet takes
twelve ticks. -/
def Config.brief : Config where
  byteTicks := 2
  preambleBytes := 1
  slotBytes := 1
  ipgBytes := 1
  pipelineSlack := 0
  jamBytes := 1
  minFrameBytes := 0
  backoffSlotBytes := 1
  maxCollisions := 2
  backoffLimit := 0

/-- What a run is given. -/
structure Scenario (σ γ : Type) where
  source : σ
  words : γ
  origin : Tick := 0
  supply : Nat → σ → σ := fun _ source => source
  reading : Nat → Tick := fun count => count
  inputs : Nat → Inputs := fun _ => {}

namespace Scenario

variable {σ γ : Type} [ByteSource σ] [WordSource γ]
  (scenario : Scenario σ γ) (start : Engine σ γ)

def tick (engine : Engine σ γ) (count : Nat) : Traced (Engine σ γ × Outputs) :=
  (engine.supplied (scenario.supply count)).tick (scenario.reading count)
    (scenario.inputs count)

/-- The engine after a tick and what it shows; a fault leaves both as they are. -/
def taken (engine : Engine σ γ) (count : Nat) : Engine σ γ × Outputs :=
  match (scenario.tick engine count).value with
  | .ok result => result
  | .error _ => (engine, {})

def engineAfter : Nat → Engine σ γ
  | 0 => start
  | count + 1 => (scenario.taken (engineAfter count) count).1

/-- No fault stops the first `length` ticks. -/
def Plays (length : Nat) : Prop :=
  ∀ count, count < length →
    (scenario.tick (scenario.engineAfter start count) count).value.isOk = true

instance (length : Nat) : Decidable (scenario.Plays start length) :=
  inferInstanceAs (Decidable (∀ count, count < length → _))

theorem tick_yields {engine : Engine σ γ} {count : Nat}
    (runs : (scenario.tick engine count).value.isOk = true) :
    (scenario.tick engine count).Yields (scenario.tick engine count).events
      (scenario.taken engine count) := by
  cases result : (scenario.tick engine count).value with
  | error fault =>
      rw [result] at runs
      cases runs
  | ok reached =>
      have taken : scenario.taken engine count = reached := by
        rw [Scenario.taken, result]
      rw [taken]
      exact Traced.ext rfl result

/-- The run of the first `length` ticks, unless the configuration is refused or a fault
stops it. -/
def run? (config : Config) (length : Nat) : Option (Run config σ γ) :=
  match setUp :
      (Engine.ofConfig config scenario.source scenario.words scenario.origin).value with
  | .ok (.ok start) =>
      if plays : scenario.Plays start length then
        some {
          length
          source := scenario.source
          words := scenario.words
          origin := scenario.origin
          supply := scenario.supply
          reading := scenario.reading
          inputs := scenario.inputs
          engine := scenario.engineAfter start
          outputs := fun count =>
            (scenario.taken (scenario.engineAfter start count) count).2
          events := fun count =>
            (scenario.tick (scenario.engineAfter start count) count).events
          setUp
          ticked := fun count within => scenario.tick_yields (plays count within) }
      else
        none
  | _ => none

end Scenario

end HalfDuplex
