/-!
# Sources of random words

Backoff draws one 32-bit word at a time.  A source is therefore a state with a
single operation, and everything else that can be drawn is read off the words:
a wide word takes two of them, the low half first, and a run of bytes takes a
wide word for every eight bytes.

Besides the class this module holds the deterministic sources that a test bench
uses to force the shortest, the longest or a listed backoff.
-/

namespace HalfDuplex

/-- A state from which 32-bit words can be drawn one after another. -/
class WordSource (γ : Type) where
  next : γ → UInt32 × γ

namespace WordSource

variable {γ : Type} [WordSource γ]

def words : (count : Nat) → (source : γ) → List UInt32 × γ
  | 0, source => ([], source)
  | count + 1, source =>
      let (word, source) := next source
      let (rest, source) := words count source
      (word :: rest, source)

/-- The next 64-bit word, whose low half is drawn first. -/
def nextWide (source : γ) : UInt64 × γ :=
  let (low, source) := next source
  let (high, source) := next source
  (low.toUInt64 ||| high.toUInt64 <<< 32, source)

def wideWords : (count : Nat) → (source : γ) → List UInt64 × γ
  | 0, source => ([], source)
  | count + 1, source =>
      let (word, source) := nextWide source
      let (rest, source) := wideWords count source
      (word :: rest, source)

/-- The `count` lowest bytes of a number, the lowest byte first. -/
def lowBytes : (count : Nat) → (value : Nat) → List UInt8
  | 0, _ => []
  | count + 1, value => UInt8.ofNat value :: lowBytes count (value / 256)

/-- The next `count` bytes, of which there are fewer than eight: cut from a wide word
if there are more than four, and else from a word, which is not drawn for none. -/
def lastBytes (count : Nat) (source : γ) : List UInt8 × γ :=
  if 4 < count then
    let (word, source) := nextWide source
    (lowBytes count word.toNat, source)
  else if 0 < count then
    let (word, source) := next source
    (lowBytes count word.toNat, source)
  else
    ([], source)

/-- The next `count` bytes: a wide word for each whole group of eight, and then the
rest. -/
def bytes (count : Nat) (source : γ) : List UInt8 × γ :=
  let (groups, source) := wideWords (count / 8) source
  let (rest, source) := lastBytes (count % 8) source
  (groups.flatMap (fun word => lowBytes 8 word.toNat) ++ rest, source)

end WordSource

/-- A source whose words are all zero, so that every backoff is the shortest. -/
structure ZeroWords where
  deriving DecidableEq, Repr

instance : WordSource ZeroWords where
  next source := (0, source)

/-- A source whose words have every bit set, so that every backoff is the longest. -/
structure MaxWords where
  deriving DecidableEq, Repr

instance : WordSource MaxWords where
  next source := (0xFFFFFFFF, source)

/-- A source that goes round a list of words; an empty list yields zeros. -/
structure ListedWords where
  round : List UInt32
  rest : List UInt32 := []
  deriving DecidableEq, Repr

instance : WordSource ListedWords where
  next source :=
    match source.rest with
    | word :: rest => (word, { source with rest })
    | [] =>
        match source.round with
        | word :: rest => (word, { source with rest })
        | [] => (0, source)

end HalfDuplex
