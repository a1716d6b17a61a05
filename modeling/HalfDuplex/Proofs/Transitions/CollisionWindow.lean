import HalfDuplex.CollisionWindow
import HalfDuplex.Proofs.Marks
import Mathlib.Algebra.Group.Nat.Defs

/-!
# The judgement of a collision

`Judges` lists the verdicts on a collision with what each of them does to the window,
and `collide_yields` reads it off a judgement that ran through.
-/

namespace HalfDuplex

namespace CollisionWindow

variable {γ : Type}

def counted (window : CollisionWindow γ) : Nat :=
  saturatingSucc collisionLimit window.collisions

/-- The window after an ordinary collision, before a backoff is drawn. -/
def struck (window : CollisionWindow γ) : CollisionWindow γ :=
  { window with attempt := none, collisions := window.counted }

def closed (window : CollisionWindow γ) : CollisionWindow γ :=
  { window with attempt := none }

variable [WordSource γ]

/-- The number of backoff slots that the next word of the source stands for. -/
def drawnSlots (window : CollisionWindow γ) : Nat :=
  (WordSource.next window.words).1.toNat %
    2 ^ min window.collisions window.limits.backoffLimit

def drawn (window : CollisionWindow γ) : CollisionWindow γ :=
  { window with words := (WordSource.next window.words).2 }

/-- What a judgement at `now` can bring. -/
inductive Judges (now : Tick) (window : CollisionWindow γ) :
    CollisionWindow γ → Verdict → Prop
  | late
      (outside : window.limits.slotTicks ≤ window.elapsed now) :
      Judges now window window.closed .late
  | giveUp
      (inside : window.elapsed now < window.limits.slotTicks)
      (tooMany : window.limits.maxCollisions ≤ window.counted) :
      Judges now window window.struck .giveUp
  | retry
      (inside : window.elapsed now < window.limits.slotTicks)
      (few : window.counted < window.limits.maxCollisions) :
      Judges now window window.struck.drawn
        (.retry window.struck.drawnSlots
          (window.struck.drawnSlots * window.limits.backoffSlotTicks))

theorem backoffSlots_eq_ok {window next : CollisionWindow γ} {slots : Nat}
    (drew : window.backoffSlots = .ok (next, slots)) :
    next = window.drawn ∧ slots = window.drawnSlots := by
  unfold backoffSlots checkedPowerOfTwo at drew
  split at drew
  · cases drew
    refine ⟨rfl, ?_⟩
    rw [Nat.one_shiftLeft]
    rfl
  · cases drew

/-- A judgement brings one of the listed verdicts, and leaves no mark. -/
theorem collide_yields {now : Tick} {window next : CollisionWindow γ}
    {verdict : Verdict} {events : List Event}
    (yields : (window.collide now).Yields events (next, verdict)) :
    Judges now window next verdict ∧ marksOf now events = [] := by
  unfold collide classify at yields
  simp only at yields
  split at yields
  · rename_i classified
    split at classified
    · cases classified
    · rename_i outside
      simp only [Traced.yields_bind, Traced.yields_record, Traced.yields_pure,
        Prod.mk.injEq] at yields
      obtain ⟨_, _, _, rfl, ⟨rfl, rfl, rfl⟩, rfl⟩ := yields
      exact ⟨.late (Nat.le_of_not_lt outside), rfl⟩
  · rename_i classified
    split at classified
    · rename_i inside
      split at yields
      · rename_i tooMany
        simp only [Traced.yields_bind, Traced.yields_record, Traced.yields_pure,
          Prod.mk.injEq] at yields
        obtain ⟨_, _, _, rfl, ⟨rfl, rfl, rfl⟩, rfl⟩ := yields
        exact ⟨.giveUp inside tooMany, rfl⟩
      · rename_i few
        simp only [Traced.yields_bind, Traced.yields_lift, Traced.yields_record,
          Traced.yields_pure, Prod.mk.injEq, checkedMul_eq_ok_iff] at yields
        obtain ⟨⟨drawn, slots⟩, _, _, ⟨rfl, drew⟩, ⟨_, _, _, ⟨rfl, _, rfl⟩,
          ⟨_, _, _, rfl, ⟨rfl, rfl, rfl⟩, rfl⟩, rfl⟩, rfl⟩ := yields
        obtain ⟨rfl, rfl⟩ := backoffSlots_eq_ok drew
        exact ⟨.retry inside (Nat.lt_of_not_le few), rfl⟩
    · cases classified

/-- A collision ends the attempt that it is about. -/
theorem Judges.attempt {now : Tick} {window next : CollisionWindow γ} {verdict : Verdict}
    (judges : Judges now window next verdict) :
    next.attempt = none := by
  cases judges <;> rfl

theorem Judges.limits {now : Tick} {window next : CollisionWindow γ} {verdict : Verdict}
    (judges : Judges now window next verdict) :
    next.limits = window.limits := by
  cases judges <;> rfl

end CollisionWindow

end HalfDuplex
