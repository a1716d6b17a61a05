/-!
# The frame check sequence

The Ethernet checksum, computed one bit at a time on a 32-bit register.  A
`Checksum` is fed the bytes of a frame as they are driven and yields the trailer
of four bytes at any point.

A receiver does not split the trailer off.  It runs the checksum over contents
and trailer together and compares the result with one constant,
`Checksum.intactResidual`.
-/

namespace HalfDuplex

/-- The state of a checksum in progress. -/
structure Checksum where
  /-- The contents of the register, before the closing complement. -/
  register : UInt32 := 0xFFFFFFFF
  deriving DecidableEq, Repr

namespace Checksum

/-- The generating polynomial, with its highest coefficient in the lowest place. -/
def polynomial : UInt32 := 0xEDB88320

def trailerLength : Nat := 4

/-- The checksum of contents followed by their own trailer, whatever the contents. -/
def intactResidual : UInt32 := 0x2144DF1C

/-- One bit shifted out of the register. -/
def shiftBit (register : UInt32) : UInt32 :=
  if register &&& 1 = 1 then (register >>> 1) ^^^ polynomial else register >>> 1

def shiftBits : (count : Nat) → (register : UInt32) → UInt32
  | 0, register => register
  | count + 1, register => shiftBits count (shiftBit register)

/-- The register after one more byte. -/
def absorb (register : UInt32) (byte : UInt8) : UInt32 :=
  shiftBits 8 (register ^^^ byte.toUInt32)

def start : Checksum := {}

def update (checksum : Checksum) (byte : UInt8) : Checksum :=
  ⟨absorb checksum.register byte⟩

def updateAll (checksum : Checksum) (data : List UInt8) : Checksum :=
  data.foldl update checksum

/-- The value of the checksum, the complement of the register. -/
def value (checksum : Checksum) : UInt32 :=
  checksum.register ^^^ 0xFFFFFFFF

def ofBytes (data : List UInt8) : UInt32 :=
  (start.updateAll data).value

/-- A checksum as it is sent, the lowest byte first. -/
def encode (checksum : UInt32) : List UInt8 :=
  [checksum.toUInt8, (checksum >>> 8).toUInt8,
    (checksum >>> 16).toUInt8, (checksum >>> 24).toUInt8]

@[simp]
theorem length_encode (checksum : UInt32) :
    (encode checksum).length = trailerLength :=
  rfl

/-- The trailer for the bytes seen so far. -/
def trailer (checksum : Checksum) : List UInt8 :=
  encode checksum.value

/-- The trailer for the bytes seen so far, with its length in its type. -/
def trailerBytes (checksum : Checksum) : Vector UInt8 trailerLength :=
  ⟨checksum.trailer.toArray, List.size_toArray.trans (length_encode checksum.value)⟩

/-- Contents followed by their trailer. -/
def sealed (data : List UInt8) : List UInt8 :=
  data ++ encode (ofBytes data)

def hexDigit (digit : Nat) : Char :=
  Nat.digitChar (digit % 16)

def hexText (value : UInt32) : String :=
  String.ofList ([7, 6, 5, 4, 3, 2, 1, 0].map fun place =>
    hexDigit (value.toNat >>> (4 * place)))

def display (checksum : Checksum) : String :=
  "Fcs(" ++ hexText checksum.value ++ ")"

theorem trailerLength_pos : 0 < trailerLength := by
  decide

@[simp]
theorem getElem?_trailerBytes (checksum : Checksum) (place : Nat) :
    checksum.trailerBytes[place]? = checksum.trailer[place]? := by
  rw [trailerBytes, Vector.getElem?_mk, List.getElem?_toArray]

@[simp]
theorem updateAll_nil (checksum : Checksum) :
    checksum.updateAll [] = checksum :=
  rfl

@[simp]
theorem updateAll_cons (checksum : Checksum) (byte : UInt8) (data : List UInt8) :
    checksum.updateAll (byte :: data) = (checksum.update byte).updateAll data :=
  rfl

@[simp]
theorem updateAll_append (checksum : Checksum) (first second : List UInt8) :
    checksum.updateAll (first ++ second) =
      (checksum.updateAll first).updateAll second := by
  simp [updateAll]

end Checksum

end HalfDuplex
