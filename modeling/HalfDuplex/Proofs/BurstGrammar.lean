import HalfDuplex.Proofs.Delivery
import HalfDuplex.Proofs.FrameCheck
import Mathlib.Data.Option.Basic

/-!
# The bursts that a receiver accepts

The nibbles of an accepted burst are a preamble, the delimiter, contents and the trailer of
these contents.  The preamble may hold anything but a clean delimiter, errors included, while
an error after the delimiter is never forgiven.  All other bursts are refused, for the first
of four causes that applies.

`Pairs` says how nibbles make bytes without mention of how a receiver joins them, so that the
grammar can be read next to it.

Main result: `Reception.accepts_burst_grammar`.
-/

namespace HalfDuplex

namespace Reception

/-- A nibble as a receiver holds it: with an error, or with a value of four bits. -/
def FourBit (nibble : Option UInt8) : Prop :=
  ∀ value ∈ nibble, value < 16

instance (nibble : Option UInt8) : Decidable (FourBit nibble) :=
  match nibble with
  | none => .isTrue nofun
  | some value => decidable_of_iff (value < 16)
      ⟨fun bound _ member => Option.mem_some.mp member ▸ bound,
        fun fourBit => fourBit value rfl⟩

/-- The bytes of nibbles taken in pairs, the low one first.  A byte is in error if one of its
nibbles is. -/
inductive Pairs : List (Option UInt8) → List (Option UInt8) → Prop
  | nil : Pairs [] []
  | clean {low high byte : UInt8} {nibbles bytes : List (Option UInt8)}
      (value : byte.toNat = low.toNat + 16 * high.toNat)
      (rest : Pairs nibbles bytes) :
      Pairs (some low :: some high :: nibbles) (some byte :: bytes)
  | errored {low high : Option UInt8} {nibbles bytes : List (Option UInt8)}
      (error : low = none ∨ high = none)
      (rest : Pairs nibbles bytes) :
      Pairs (low :: high :: nibbles) (none :: bytes)

/-! ## Nibbles and bytes -/

theorem toNat_join {low high : UInt8} (lowBound : low < 16) (highBound : high < 16) :
    (low ||| high <<< 4).toNat = low.toNat + 16 * high.toNat := by
  have lowNat : low.toNat < 2 ^ 4 := UInt8.lt_iff_toNat_lt.mp lowBound
  have highNat : high.toNat < 2 ^ 4 := UInt8.lt_iff_toNat_lt.mp highBound
  have shifted : (high <<< 4).toNat = 2 ^ 4 * high.toNat := by
    rw [UInt8.toNat_shiftLeft]
    show high.toNat <<< 4 % 2 ^ 8 = 2 ^ 4 * high.toNat
    rw [Nat.shiftLeft_eq]
    omega
  rw [UInt8.toNat_or, shifted, Nat.or_comm, ← Nat.two_pow_add_eq_or_of_lt lowNat]
  omega

variable {nibbles bytes before rest : List (Option UInt8)}

/-- Four-bit nibbles of even number pair up to the bytes that a receiver joins them to. -/
theorem pairs_iff (fourBit : ∀ nibble ∈ nibbles, FourBit nibble) :
    Pairs nibbles bytes ↔ nibbles.length % 2 = 0 ∧ pairNibbles nibbles = bytes := by
  fun_induction pairNibbles nibbles generalizing bytes with
  | case1 low high nibbles inductionHypothesis =>
      have laterFits : ∀ nibble ∈ nibbles, FourBit nibble := fun nibble member =>
        fourBit nibble (List.mem_cons_of_mem _ (List.mem_cons_of_mem _ member))
      have later (bytes : List (Option UInt8)) :
          Pairs nibbles bytes ↔ nibbles.length % 2 = 0 ∧ pairNibbles nibbles = bytes :=
        inductionHypothesis laterFits
      have lowFits := fourBit low List.mem_cons_self
      have highFits := fourBit high (List.mem_cons_of_mem _ List.mem_cons_self)
      rw [List.length_cons, List.length_cons, Nat.add_assoc, Nat.add_mod_right]
      constructor
      · intro pairs
        cases pairs with
        | clean value rest =>
            obtain ⟨even, rfl⟩ := (later _).mp rest
            have joined := UInt8.toNat_inj.mp
              ((toNat_join (lowFits _ rfl) (highFits _ rfl)).trans value.symm)
            exact ⟨even, congrArg (some · :: pairNibbles nibbles) joined⟩
        | errored error rest =>
            obtain ⟨even, rfl⟩ := (later _).mp rest
            refine ⟨even, congrArg (· :: pairNibbles nibbles) ?_⟩
            rcases error with rfl | rfl
            · rfl
            · cases low <;> rfl
      · rintro ⟨even, rfl⟩
        have rest := (later _).mpr ⟨even, rfl⟩
        cases low with
        | none => exact .errored (.inl rfl) rest
        | some low =>
            cases high with
            | none => exact .errored (.inr rfl) rest
            | some high => exact .clean (toNat_join (lowFits _ rfl) (highFits _ rfl)) rest
  | case2 nibbles short =>
      match nibbles with
      | [] =>
          constructor
          · rintro ⟨⟩
            exact ⟨rfl, rfl⟩
          · rintro ⟨_, rfl⟩
            exact .nil
      | [_] => exact iff_of_false nofun nofun
      | low :: high :: rest => exact absurd rfl (short low high rest)

theorem Pairs.append {first firstBytes : List (Option UInt8)}
    (firstPairs : Pairs first firstBytes)
    (pairs : Pairs nibbles bytes) :
    Pairs (first ++ nibbles) (firstBytes ++ bytes) := by
  induction firstPairs with
  | nil => exact pairs
  | clean value _ inductionHypothesis => exact .clean value inductionHypothesis
  | errored error _ inductionHypothesis => exact .errored error inductionHypothesis

/-- Where the bytes are cut, the nibbles can be cut as well. -/
theorem Pairs.exists_split {later : List (Option UInt8)}
    (pairs : Pairs nibbles (before ++ later)) :
    ∃ front back, nibbles = front ++ back ∧ Pairs front before ∧ Pairs back later := by
  induction before generalizing nibbles with
  | nil => exact ⟨[], nibbles, rfl, .nil, pairs⟩
  | cons byte before inductionHypothesis =>
      cases pairs with
      | clean value rest =>
          obtain ⟨front, back, rfl, frontPairs, backPairs⟩ := inductionHypothesis rest
          exact ⟨_ :: _ :: front, back, rfl, .clean value frontPairs, backPairs⟩
      | errored error rest =>
          obtain ⟨front, back, rfl, frontPairs, backPairs⟩ := inductionHypothesis rest
          exact ⟨_ :: _ :: front, back, rfl, .errored error frontPairs, backPairs⟩

theorem fourBit_of_mem_wireNibbles {octets : List Octet} {nibble : Option UInt8}
    (member : nibble ∈ wireNibbles octets) :
    FourBit nibble := by
  obtain ⟨octet, _, half⟩ := List.mem_flatMap.mp member
  intro value present
  cases octet with
  | poisoned => rcases List.mem_pair.mp half with rfl | rfl <;> cases present
  | byte byte =>
      rcases List.mem_pair.mp half with rfl | rfl
      · exact Option.mem_some.mp present ▸ Octet.lowNibble_lt _
      · exact Option.mem_some.mp present ▸ Octet.highNibble_lt _

theorem even_wireNibbles (octets : List Octet) : (wireNibbles octets).length % 2 = 0 := by
  rw [length_wireNibbles, Nat.mul_mod_right]

theorem pairs_wireNibbles (data : List UInt8) :
    Pairs (wireNibbles (data.map .byte)) (data.map some) := by
  refine (pairs_iff fun _ => fourBit_of_mem_wireNibbles).mpr ⟨even_wireNibbles _, ?_⟩
  rw [pairNibbles_wireNibbles, List.map_map]
  rfl

/-- Clean bytes tell the nibbles that were sent for them. -/
theorem Pairs.eq_wireNibbles {data : List UInt8}
    (fourBit : ∀ nibble ∈ nibbles, FourBit nibble)
    (pairs : Pairs nibbles (data.map some)) :
    nibbles = wireNibbles (data.map .byte) := by
  induction data generalizing nibbles with
  | nil =>
      cases pairs
      rfl
  | cons byte data inductionHypothesis =>
      cases pairs with
      | @clean low high _ nibbles _ value rest =>
          have lowFits := fourBit (some low) List.mem_cons_self low rfl
          have highFits := fourBit (some high) (List.mem_cons_of_mem _ List.mem_cons_self) high rfl
          have later := inductionHypothesis (fun nibble member =>
            fourBit nibble (List.mem_cons_of_mem _ (List.mem_cons_of_mem _ member))) rest
          have lowNat : low.toNat < 2 ^ 4 := UInt8.lt_iff_toNat_lt.mp lowFits
          have sameLow : byte &&& 0x0F = low := by
            apply UInt8.toNat_inj.mp
            rw [UInt8.toNat_and]
            show byte.toNat &&& (2 ^ 4 - 1) = low.toNat
            rw [Nat.and_two_pow_sub_one_eq_mod]
            omega
          have sameHigh : byte >>> 4 = high := by
            apply UInt8.toNat_inj.mp
            rw [UInt8.toNat_shiftRight]
            show byte.toNat >>> 4 = high.toNat
            rw [Nat.shiftRight_eq_div_pow]
            omega
          rw [later]
          show some low :: some high :: _ = some (byte &&& 0x0F) :: some (byte >>> 4) :: _
          rw [sameLow, sameHigh]
          rfl

/-! ## The delimiter and what follows it -/

theorem afterDelimiter_eq_none_iff :
    afterDelimiter bytes = none ↔ some frameDelimiter ∉ bytes := by
  induction bytes with
  | nil => exact iff_of_true rfl List.not_mem_nil
  | cons byte bytes inductionHypothesis =>
      rw [afterDelimiter, List.mem_cons, not_or]
      split
      · rename_i found
        exact iff_of_false (Option.some_ne_none _) fun absent => absent.1 found.symm
      · rename_i other
        rw [inductionHypothesis]
        exact (and_iff_right (Ne.symm other)).symm

theorem afterDelimiter_append (absent : some frameDelimiter ∉ before) :
    afterDelimiter (before ++ some frameDelimiter :: rest) = some rest := by
  induction before with
  | nil => exact if_pos rfl
  | cons byte before inductionHypothesis =>
      have other : byte ≠ some frameDelimiter := fun same =>
        absent (same ▸ List.mem_cons_self)
      rw [List.cons_append, afterDelimiter, if_neg other]
      exact inductionHypothesis fun member => absent (List.mem_cons_of_mem _ member)

/-- The first delimiter cuts the bytes in two. -/
theorem exists_first_delimiter (present : some frameDelimiter ∈ bytes) :
    ∃ before rest, bytes = before ++ some frameDelimiter :: rest ∧
      some frameDelimiter ∉ before := by
  obtain ⟨before, rest, split, absent⟩ := List.eq_append_cons_of_mem present
  exact ⟨before, rest, split, absent⟩

theorem map_some_inj {frame other : List UInt8} :
    frame.map some = other.map some ↔ frame = other :=
  (List.map_injective_iff.mpr (Option.some_injective UInt8)).eq_iff

theorem cleanBytes_eq_some_iff {frame : List UInt8} :
    cleanBytes bytes = some frame ↔ bytes = frame.map some := by
  induction bytes generalizing frame with
  | nil => cases frame <;> simp [cleanBytes]
  | cons byte bytes inductionHypothesis =>
      cases byte with
      | none => cases frame <;> simp [cleanBytes]
      | some byte =>
          rw [cleanBytes, Option.map_eq_some_iff]
          simp only [inductionHypothesis]
          cases frame with
          | nil => simp
          | cons first frame => simp [and_comm]

/-! ## The verdict -/

variable {minLength : Nat}

theorem openFrame_refuses {frame : List UInt8} {cause : ReceiveError}
    (refused : openFrame frame minLength = .error cause) :
    cause = .padding ∨ cause = .frameCheck := by
  rcases sealed_or_refused frame minLength with ⟨_, _, opened⟩ | ⟨_, broken⟩
  · rw [opened] at refused
    split at refused
    · exact .inl (Except.error.inj refused).symm
    · cases refused
  · exact .inr (Except.error.inj (refused.symm.trans broken))

/-- An even number of nibbles has a delimiter, or it is refused for having none. -/
theorem decode_of_even (minLength : Nat) (even : nibbles.length % 2 = 0) :
    decode nibbles minLength = .error .noDelimiter ∧
        some frameDelimiter ∉ pairNibbles nibbles ∨
      (∀ cause, decode nibbles minLength = .error cause →
        cause = .padding ∨ cause = .frameCheck) ∧
        some frameDelimiter ∈ pairNibbles nibbles := by
  simp only [decode, if_neg (Decidable.not_not.mpr even)]
  cases found : afterDelimiter (pairNibbles nibbles) with
  | none => exact .inl ⟨rfl, afterDelimiter_eq_none_iff.mp found⟩
  | some rest =>
      refine .inr ⟨fun cause refused => ?_, ?_⟩
      · dsimp only at refused
        split at refused
        · exact .inr (Except.error.inj refused).symm
        · exact openFrame_refuses refused
      · by_contra absent
        rw [afterDelimiter_eq_none_iff.mpr absent] at found
        cases found

theorem decode_eq_alignment_iff :
    decode nibbles minLength = .error .alignment ↔ nibbles.length % 2 = 1 := by
  rcases Nat.mod_two_eq_zero_or_one nibbles.length with even | odd
  · refine iff_of_false (fun refused => ?_) (by omega)
    rcases decode_of_even minLength even with ⟨missing, _⟩ | ⟨causes, _⟩
    · cases refused.symm.trans missing
    · rcases causes _ refused with cause | cause <;> cases cause
  · refine iff_of_true ?_ odd
    rw [decode, if_pos (by omega)]

theorem decode_eq_noDelimiter_iff (even : nibbles.length % 2 = 0) :
    decode nibbles minLength = .error .noDelimiter ↔
      some frameDelimiter ∉ pairNibbles nibbles := by
  rcases decode_of_even minLength even with ⟨missing, absent⟩ | ⟨causes, present⟩
  · exact iff_of_true missing absent
  · refine iff_of_false (fun refused => ?_) (not_not_intro present)
    rcases causes _ refused with cause | cause <;> cases cause

/-- What is made of a burst with a delimiter depends on the bytes after the first one. -/
theorem decode_of_split (minLength : Nat)
    (even : nibbles.length % 2 = 0)
    (split : pairNibbles nibbles = before ++ some frameDelimiter :: rest)
    (absent : some frameDelimiter ∉ before) :
    (∃ frame, rest = frame.map some ∧ decode nibbles minLength = openFrame frame minLength) ∨
      (∀ frame : List UInt8, rest ≠ frame.map some) ∧
        decode nibbles minLength = .error .frameCheck := by
  simp only [decode, if_neg (Decidable.not_not.mpr even), split, afterDelimiter_append absent]
  cases clean : cleanBytes rest with
  | some frame => exact .inl ⟨frame, cleanBytes_eq_some_iff.mp clean, rfl⟩
  | none =>
      refine .inr ⟨fun frame same => ?_, rfl⟩
      rw [cleanBytes_eq_some_iff.mpr same] at clean
      cases clean

section Split

variable
    (even : nibbles.length % 2 = 0)
    (split : pairNibbles nibbles = before ++ some frameDelimiter :: rest)
    (absent : some frameDelimiter ∉ before)

include even split absent

theorem decode_eq_ok_iff {data : List UInt8} :
    decode nibbles minLength = .ok data ↔
      rest = (Checksum.sealed data).map some ∧ minLength ≤ rest.length := by
  rcases decode_of_split minLength even split absent with ⟨frame, rfl, opened⟩ | ⟨dirty, refused⟩
  · rw [opened, openFrame_eq_ok_iff, List.length_map, map_some_inj]
  · rw [refused]
    exact iff_of_false nofun fun accepted => dirty _ accepted.1

theorem decode_eq_padding_iff :
    decode nibbles minLength = .error .padding ↔
      (∃ data, rest = (Checksum.sealed data).map some) ∧ rest.length < minLength := by
  rcases decode_of_split minLength even split absent with ⟨frame, rfl, opened⟩ | ⟨dirty, refused⟩
  · simp only [opened, openFrame_eq_padding_iff, List.length_map, map_some_inj]
  · rw [refused]
    exact iff_of_false nofun fun short => short.1.elim fun _ whole => dirty _ whole

theorem decode_eq_frameCheck_iff :
    decode nibbles minLength = .error .frameCheck ↔
      ∀ data, rest ≠ (Checksum.sealed data).map some := by
  rcases decode_of_split minLength even split absent with ⟨frame, rfl, opened⟩ | ⟨dirty, refused⟩
  · simp only [opened, openFrame_eq_frameCheck_iff, ne_eq, map_some_inj]
  · exact iff_of_true refused fun data => dirty _

end Split

/-! ## The grammar -/

/-- The form of an accepted burst. -/
theorem decode_eq_ok_iff_exists {data : List UInt8}
    (fourBit : ∀ nibble ∈ nibbles, FourBit nibble) :
    decode nibbles minLength = .ok data ↔
      ∃ preamble bytes, Pairs preamble bytes ∧ some frameDelimiter ∉ bytes ∧
        nibbles = preamble ++
          wireNibbles ((frameDelimiter :: Checksum.sealed data).map .byte) ∧
        minLength ≤ data.length + Checksum.trailerLength := by
  have sealedLength : ((Checksum.sealed data).map some).length =
      data.length + Checksum.trailerLength := by
    rw [List.length_map, Checksum.sealed, List.length_append, Checksum.length_encode]
  constructor
  · intro accepted
    have even : nibbles.length % 2 = 0 := by
      by_contra odd
      cases accepted.symm.trans (decode_eq_alignment_iff.mpr (Nat.mod_two_ne_zero.mp odd))
    have present : some frameDelimiter ∈ pairNibbles nibbles := by
      by_contra absent
      cases accepted.symm.trans ((decode_eq_noDelimiter_iff even).mpr absent)
    obtain ⟨before, rest, split, absent⟩ := exists_first_delimiter present
    obtain ⟨rfl, long⟩ := (decode_eq_ok_iff even split absent).mp accepted
    have pairs := (pairs_iff fourBit).mpr ⟨even, split⟩
    obtain ⟨preamble, frame, rfl, preamblePairs, framePairs⟩ := pairs.exists_split
    have frameFits : ∀ nibble ∈ frame, FourBit nibble := fun nibble member =>
      fourBit nibble (List.mem_append_right preamble member)
    have sent : frame = wireNibbles ((frameDelimiter :: Checksum.sealed data).map .byte) :=
      framePairs.eq_wireNibbles frameFits
    exact ⟨preamble, before, preamblePairs, absent, congrArg (preamble ++ ·) sent,
      sealedLength ▸ long⟩
  · rintro ⟨preamble, before, preamblePairs, absent, rfl, long⟩
    have pairs := preamblePairs.append (pairs_wireNibbles (frameDelimiter :: Checksum.sealed data))
    obtain ⟨even, split⟩ := (pairs_iff fourBit).mp pairs
    exact (decode_eq_ok_iff even split absent).mpr ⟨rfl, sealedLength ▸ long⟩

/-- A receiver refuses a burst of an odd number of nibbles, one without a clean delimiter, one
in which errors or anything but contents with their own trailer follow the first delimiter, and
one that is too short, in this order, and it accepts all others.  An accepted burst is a
preamble without delimiter, the delimiter, and the contents with their trailer as they are
sent. -/
theorem accepts_burst_grammar (minLength : Nat)
    (fourBit : ∀ nibble ∈ nibbles, FourBit nibble) :
    (decode nibbles minLength = .error .alignment ↔ nibbles.length % 2 = 1) ∧
    (nibbles.length % 2 = 0 → ∃ bytes, Pairs nibbles bytes) ∧
    (∀ bytes, Pairs nibbles bytes →
      (decode nibbles minLength = .error .noDelimiter ↔ some 0xD5 ∉ bytes) ∧
      ∀ before rest, bytes = before ++ some 0xD5 :: rest → some 0xD5 ∉ before →
        (∀ data, decode nibbles minLength = .ok data ↔
          rest = (data ++ Checksum.encode (Checksum.ofBytes data)).map some ∧
            minLength ≤ rest.length) ∧
        (decode nibbles minLength = .error .padding ↔
          (∃ data, rest = (data ++ Checksum.encode (Checksum.ofBytes data)).map some) ∧
            rest.length < minLength) ∧
        (decode nibbles minLength = .error .frameCheck ↔
          ∀ data, rest ≠ (data ++ Checksum.encode (Checksum.ofBytes data)).map some)) ∧
    (∀ data, decode nibbles minLength = .ok data ↔
      ∃ preamble bytes, Pairs preamble bytes ∧ some 0xD5 ∉ bytes ∧
        nibbles = preamble ++ wireNibbles
          ((0xD5 :: (data ++ Checksum.encode (Checksum.ofBytes data))).map .byte) ∧
        minLength ≤ data.length + 4) := by
  refine ⟨decode_eq_alignment_iff, fun even => ⟨_, (pairs_iff fourBit).mpr ⟨even, rfl⟩⟩, ?_,
    fun data => decode_eq_ok_iff_exists fourBit⟩
  intro bytes pairs
  obtain ⟨even, rfl⟩ := (pairs_iff fourBit).mp pairs
  refine ⟨decode_eq_noDelimiter_iff even, fun before rest split absent => ?_⟩
  exact ⟨fun data => decode_eq_ok_iff even split absent, decode_eq_padding_iff even split absent,
    decode_eq_frameCheck_iff even split absent⟩

/-- A preamble of which one nibble was received with an error does no harm. -/
theorem accepts_burst_grammar_after_error :
    (∀ nibble ∈ none :: some 0x5 ::
        wireNibbles ([0xD5, 0x12, 0x34, 0x56, 0x3A, 0xA9, 0xC1, 0xD9].map .byte),
      FourBit nibble) ∧
    decode (none :: some 0x5 ::
        wireNibbles ([0xD5, 0x12, 0x34, 0x56, 0x3A, 0xA9, 0xC1, 0xD9].map .byte)) 7 =
      .ok [0x12, 0x34, 0x56] := by
  have fourBit : ∀ nibble ∈ none :: some 0x5 ::
      wireNibbles ([0xD5, 0x12, 0x34, 0x56, 0x3A, 0xA9, 0xC1, 0xD9].map .byte),
      FourBit nibble :=
    List.forall_mem_cons.mpr ⟨by decide,
      List.forall_mem_cons.mpr ⟨by decide, fun _ => fourBit_of_mem_wireNibbles⟩⟩
  have preamble : Pairs [none, some 0x5] [none] := .errored (.inl rfl) .nil
  have trailer : Checksum.encode (Checksum.ofBytes [0x12, 0x34, 0x56]) =
      [0x3A, 0xA9, 0xC1, 0xD9] := by
    decide +kernel
  refine ⟨fourBit, ((accepts_burst_grammar 7 fourBit).2.2.2 [0x12, 0x34, 0x56]).mpr ?_⟩
  rw [trailer]
  exact ⟨_, _, preamble, by decide, rfl, by decide⟩

end Reception

/-! ## The nibbles that a receiver takes -/

namespace Receiver

theorem fourBit_nibble (signals : Signals) : Reception.FourBit (nibble signals) := by
  intro value present
  unfold nibble at present
  split at present
  · cases present
  · rw [← Option.mem_some.mp present, UInt8.lt_iff_toNat_lt, UInt8.toNat_and]
    exact Nat.and_lt_two_pow _ (n := 4) (by decide)

/-- The nibbles of the burst in progress have four bits, and so had those of every burst
before. -/
structure HoldsFourBits (receiver : Receiver) : Prop where
  current : ∀ nibble ∈ receiver.nibbles.toList, Reception.FourBit nibble
  earlier : ∀ received ∈ receiver.bursts, ∃ nibbles,
    (∀ nibble ∈ nibbles, Reception.FourBit nibble) ∧
      received.result = Reception.decode nibbles receiver.minLength

variable {receiver : Receiver} {signals : Signals}

theorem fourBit_of_mem_newNibbles {nibble : Option UInt8}
    (member : nibble ∈ Sequencer.newNibbles signals) :
    Reception.FourBit nibble := by
  unfold Sequencer.newNibbles at member
  split at member
  · rw [List.mem_singleton.mp member]
    exact fourBit_nibble signals
  · cases member

theorem HoldsFourBits.sampled (now : Tick) (holds : receiver.HoldsFourBits) :
    (receiver.sampled now signals).HoldsFourBits := by
  cases active : receiver.active <;> cases enabled : signals.enable
  · rwa [sampled_silent active enabled]
  · rw [sampled_begin active enabled]
    exact ⟨fun _ => fourBit_of_mem_newNibbles, holds.earlier⟩
  · rw [sampled_finish active enabled]
    refine ⟨holds.current, fun received member => ?_⟩
    rcases Array.mem_push.mp member with before | rfl
    · exact holds.earlier received before
    · exact ⟨receiver.nibbles.toList, holds.current, rfl⟩
  · rw [sampled_go_on active enabled]
    refine ⟨fun nibble member => ?_, holds.earlier⟩
    rcases List.mem_append.mp member with old | new
    · exact holds.current nibble old
    · exact fourBit_of_mem_newNibbles new

end Receiver

/-- Whatever a station drives, its receiver decodes nibbles of four bits. -/
theorem Run.holdsFourBits_receiver {config : Config} {σ γ : Type} [ByteSource σ] [WordSource γ]
    (run : Run config σ γ) (minLength count : Nat) :
    (run.receiver minLength count).HoldsFourBits := by
  induction count with
  | zero => exact ⟨nofun, nofun⟩
  | succ count inductionHypothesis => exact inductionHypothesis.sampled _

end HalfDuplex
