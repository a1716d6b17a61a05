import HalfDuplex.Proofs.Transitions.Sequencer
import HalfDuplex.Source.Queue
import HalfDuplex.Source.Script

/-!
# Sources that hold whole frames

A `FrameStore` is a byte source in which the frames that wait can be seen.  Frames are
added at the end; pulling and rewinding leave them alone, and a release removes the one
in front.  The queue of frames and the scripted source are the two frame stores, and
what is said of a frame store holds of both.

The places of a frame are script entries.  A frame in the queue has an octet in every
place.
-/

namespace HalfDuplex

/-- A byte source of whole frames to which items may be offered, with the laws that relate its
operations to the frames in it and to the number of octets pulled from the one in front. -/
class FrameStore (σ : Type) [ByteSource σ] where
  Item : Type
  offer : σ → Item → σ
  frames : σ → List (List ScriptEntry)
  cursor : σ → Nat
  frames_offer : ∀ source item, ∃ added, frames (offer source item) = frames source ++ added
  cursor_offer : ∀ source item, cursor (offer source item) = cursor source
  ready_iff : ∀ source, ByteSource.ready source = true ↔ frames source ≠ []
  frames_pull : ∀ source now after answer,
    ByteSource.pull source now = .ok (after, answer) → frames after = frames source
  pull_octet : ∀ source now after octet,
    ByteSource.pull source now = .ok (after, .octet octet) →
      (∃ front rest, frames source = front :: rest ∧
        front[cursor source]? = some (.octet octet)) ∧ cursor after = cursor source + 1
  pull_finished : ∀ source now after,
    ByteSource.pull source now = .ok (after, .finished) →
      ∃ front rest, frames source = front :: rest ∧ front.length ≤ cursor source
  frames_rewind : ∀ source, frames (ByteSource.rewind source) = frames source
  cursor_rewind : ∀ source, cursor (ByteSource.rewind source) = 0
  frames_release : ∀ source, frames (ByteSource.release source) = (frames source).tail
  cursor_release : ∀ source, cursor (ByteSource.release source) = 0

namespace FrameStore

variable {σ : Type} [ByteSource σ] [FrameStore σ]

/-- The source after items were offered to it, one after the other. -/
def offerAll (source : σ) (items : List (Item σ)) : σ :=
  items.foldl offer source

/-- Nothing but offering items is done to the source. -/
def Appends (change : σ → σ) : Prop :=
  ∃ items : List (Item σ), ∀ source, change source = offerAll source items

theorem frames_offerAll (source : σ) (items : List (Item σ)) :
    ∃ added, frames (offerAll source items) = frames source ++ added := by
  induction items generalizing source with
  | nil => exact ⟨[], (List.append_nil _).symm⟩
  | cons item items inductionHypothesis =>
      obtain ⟨first, offered⟩ := frames_offer source item
      obtain ⟨rest, later⟩ := inductionHypothesis (offer source item)
      refine ⟨first ++ rest, ?_⟩
      show frames (offerAll (offer source item) items) = _
      rw [later, offered, List.append_assoc]

theorem cursor_offerAll (source : σ) (items : List (Item σ)) :
    cursor (offerAll source items) = cursor source := by
  induction items generalizing source with
  | nil => rfl
  | cons item items inductionHypothesis =>
      exact (inductionHypothesis (offer source item)).trans (cursor_offer source item)

theorem Appends.frames {change : σ → σ} (appends : Appends change) (source : σ) :
    ∃ added, FrameStore.frames (change source) = FrameStore.frames source ++ added := by
  obtain ⟨items, offers⟩ := appends
  rw [offers]
  exact frames_offerAll source items

theorem Appends.cursor {change : σ → σ} (appends : Appends change) (source : σ) :
    FrameStore.cursor (change source) = FrameStore.cursor source := by
  obtain ⟨items, offers⟩ := appends
  rw [offers, cursor_offerAll]

end FrameStore

namespace Sequencer

variable {σ : Type} [ByteSource σ] [FrameStore σ] {now : Tick} {collision : Bool}
  {sequencer next : Sequencer} {source after : σ}

/-- An attempt leaves the frames in the source alone. -/
theorem Moves.frames {step : SequencerStep}
    (moves : Moves now collision sequencer source next after step) :
    FrameStore.frames after = FrameStore.frames source := by
  rcases moves.pulls with rfl | ⟨_, pulled⟩
  · rfl
  · exact FrameStore.frames_pull _ _ _ _ pulled

end Sequencer

/-- The queue after one more frame was offered to it. -/
def FrameQueue.offer {capacity : Nat} (queue : FrameQueue capacity) (frame : Frame) :
    FrameQueue capacity :=
  (queue.enqueue frame).1

/-- The places of a frame in the queue. -/
def Frame.entries (frame : Frame) : List ScriptEntry :=
  frame.octets.map .octet

instance {capacity : Nat} : FrameStore (FrameQueue capacity) where
  Item := Frame
  offer := FrameQueue.offer
  frames queue := queue.frames.map Frame.entries
  cursor queue := queue.cursor
  frames_offer queue frame := by
    unfold FrameQueue.offer
    by_cases full : queue.length = capacity
    · rw [FrameQueue.enqueue_of_full frame full]
      exact ⟨[], by simp⟩
    · obtain ⟨next, accepted, frames, _⟩ := FrameQueue.enqueue_of_room frame full
      rw [accepted]
      exact ⟨[frame.entries], by simp [frames]⟩
  cursor_offer queue frame := by
    unfold FrameQueue.offer
    by_cases full : queue.length = capacity
    · rw [FrameQueue.enqueue_of_full frame full]
    · obtain ⟨next, accepted, _, cursor⟩ := FrameQueue.enqueue_of_room frame full
      rw [accepted]
      exact cursor
  ready_iff queue := by
    cases held : queue.frames <;> simp [ByteSource.ready, held]
  frames_pull queue now after answer pulled := by
    replace pulled : queue.pull = (after, answer) := Except.ok.inj pulled
    unfold FrameQueue.pull at pulled
    split at pulled
    · cases pulled
      rfl
    · split at pulled <;> cases pulled <;> rfl
  pull_octet queue now after octet pulled := by
    replace pulled : queue.pull = (after, .octet octet) := Except.ok.inj pulled
    unfold FrameQueue.pull at pulled
    split at pulled
    · cases pulled
    · rename_i front rest held
      split at pulled
      · rename_i found
        cases pulled
        exact ⟨⟨front.entries, rest.map Frame.entries, by simp [held],
          by simp [Frame.entries, found]⟩, rfl⟩
      · cases pulled
  pull_finished queue now after pulled := by
    replace pulled : queue.pull = (after, .finished) := Except.ok.inj pulled
    unfold FrameQueue.pull at pulled
    split at pulled
    · cases pulled
    · rename_i front rest held
      split at pulled
      · cases pulled
      · rename_i missing
        rw [List.getElem?_eq_none_iff] at missing
        exact ⟨front.entries, rest.map Frame.entries, by simp [held],
          by simpa [Frame.entries] using missing⟩
  frames_rewind _ := rfl
  cursor_rewind _ := rfl
  frames_release queue := by simp [ByteSource.release, FrameQueue.release, List.map_tail]
  cursor_release _ := rfl

namespace ScriptedSource

inductive Pulls (source : ScriptedSource) (now : Tick) : ScriptedSource → Pull → Prop
  | starved :
      Pulls source now source .starved
  | finished {front : ScriptedFrame} {rest : List ScriptedFrame}
      (held : source.frames = front :: rest)
      (spent : front.entries.length ≤ source.cursor) :
      Pulls source now source .finished
  | octet {front : ScriptedFrame} {rest : List ScriptedFrame} {octet : Octet}
      (held : source.frames = front :: rest)
      (place : front.entries[source.cursor]? = some (.octet octet)) :
      Pulls source now
        { source with cursor := source.cursor + 1, last := some now } (.octet octet)

theorem pull_eq_ok {source after : ScriptedSource} {now : Tick} {answer : Pull}
    (pulled : source.pull now = .ok (after, answer)) :
    source.Pulls now after answer := by
  unfold pull at pulled
  split at pulled
  · cases pulled
    exact .starved
  · rename_i front rest held
    split at pulled
    · rename_i missing
      cases pulled
      exact .finished held (List.getElem?_eq_none_iff.mp missing)
    · rename_i entry place
      cases paced : source.heldBack front.cadence now with
      | error fault =>
          rw [paced] at pulled
          cases pulled
      | ok early =>
          rw [paced] at pulled
          cases early with
          | true =>
              cases pulled
              exact .starved
          | false =>
              cases entry with
              | octet octet =>
                  cases pulled
                  exact .octet held place
              | stall =>
                  cases pulled
                  exact .starved

end ScriptedSource

instance : FrameStore ScriptedSource where
  Item := ScriptedFrame
  offer := ScriptedSource.push
  frames source := source.frames.map ScriptedFrame.entries
  cursor source := source.cursor
  frames_offer source frame := ⟨[frame.entries], by simp [ScriptedSource.push]⟩
  cursor_offer _ _ := rfl
  ready_iff source := by
    cases held : source.frames <;> simp [ByteSource.ready, held]
  frames_pull source now after answer pulled := by
    cases ScriptedSource.pull_eq_ok pulled <;> rfl
  pull_octet source now after octet pulled := by
    cases ScriptedSource.pull_eq_ok pulled with
    | @octet front rest _ held place =>
        exact ⟨⟨front.entries, rest.map ScriptedFrame.entries, by simp [held], place⟩, rfl⟩
  pull_finished source now after pulled := by
    cases ScriptedSource.pull_eq_ok pulled with
    | @finished front rest held spent =>
        exact ⟨front.entries, rest.map ScriptedFrame.entries, by simp [held], spent⟩
  frames_rewind _ := rfl
  cursor_rewind _ := rfl
  frames_release source := by
    simp [ByteSource.release, ScriptedSource.release, List.map_tail]
  cursor_release _ := rfl

end HalfDuplex
