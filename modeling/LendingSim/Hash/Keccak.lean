/-!
# Keccak-256

The hash that names markets and checksums addresses: the Keccak sponge with the 1600-bit
permutation, a rate of 136 bytes, the Keccak `0x01 … 0x80` padding (not the SHA-3 `0x06` one),
and 32 bytes of output.
The state is five rows of five lanes of 64 bits; lane `(x, y)` is lane `x` of row `y`, and bytes
enter and leave a lane least significant first. The steps of a round work a row at a time,
rotating a row to line each lane up with its neighbours, so no step looks a lane up by index
more than once.
-/

namespace LendingSim.Keccak

/-- The lanes `(0, y)` to `(4, y)` of row `y`. -/
abbrev Row := List UInt64

/-- The five rows of the permutation's state. -/
abbrev State := List Row

/-- The state of all-zero lanes. -/
def State.zero : State := List.replicate 5 (List.replicate 5 0)

/-- The constants added to lane `(0, 0)`, one per round. -/
def roundConstants : List UInt64 :=
  [0x0000000000000001, 0x0000000000008082, 0x800000000000808A, 0x8000000080008000,
   0x000000000000808B, 0x0000000080000001, 0x8000000080008081, 0x8000000000008009,
   0x000000000000008A, 0x0000000000000088, 0x0000000080008009, 0x000000008000000A,
   0x000000008000808B, 0x800000000000008B, 0x8000000000008089, 0x8000000000008003,
   0x8000000000008002, 0x8000000000000080, 0x000000000000800A, 0x800000008000000A,
   0x8000000080008081, 0x8000000000008080, 0x0000000080000001, 0x8000000080008008]

/-- The rotation of each lane, row by row. -/
def rotationOffsets : List (List Nat) :=
  [[0, 1, 62, 28, 27], [36, 44, 6, 55, 20], [3, 10, 43, 25, 39], [41, 45, 15, 21, 8],
   [18, 2, 61, 56, 14]]

/-- Lane `(x, y)` of a state, both taken modulo 5. -/
def lane (s : State) (x y : Nat) : UInt64 := (s.getD (y % 5) []).getD (x % 5) 0

/-- The rotation of lane `(x, y)`, both taken modulo 5. -/
def rotationOffset (x y : Nat) : Nat := (rotationOffsets.getD (y % 5) []).getD (x % 5) 0

/-- Rotation to the left by `n < 64` places. -/
def rotateLeft (w : UInt64) (n : Nat) : UInt64 :=
  if n = 0 then w else (w <<< n.toUInt64) ||| (w >>> (64 - n).toUInt64)

/-- Lanewise exclusive or of two rows. -/
def xorRows (a b : Row) : Row := List.zipWith (· ^^^ ·) a b

/-- θ: every lane absorbs the parities of the two neighbouring columns. -/
def theta (s : State) : State :=
  let parity := s.foldl xorRows [0, 0, 0, 0, 0]
  let effect := List.zipWith (fun left right => left ^^^ rotateLeft right 1)
    (parity.rotateRight 1) (parity.rotateLeft 1)
  s.map (xorRows effect)

/-- ρ and π: lane `(x, y)` is rotated and moved to `(y, 2 x + 3 y)`, so lane `(X, Y)` comes from
`(X + 3 Y, X)`. -/
def rhoPi (s : State) : State :=
  (List.range 5).map fun bigY => (List.range 5).map fun bigX =>
    rotateLeft (lane s (bigX + 3 * bigY) bigX) (rotationOffset (bigX + 3 * bigY) bigX)

/-- χ on one row: each lane mixes with the next two. -/
def chiRow (row : Row) : Row :=
  xorRows row
    (List.zipWith (fun next afterNext => ~~~next &&& afterNext) (row.rotateLeft 1) (row.rotateLeft 2))

/-- One round: θ, ρ, π, χ, then ι adds the round constant to lane `(0, 0)`. -/
def round (s : State) (constant : UInt64) : State :=
  ((rhoPi (theta s)).map chiRow).modifyHead (·.modifyHead (· ^^^ constant))

/-- The 24-round permutation. -/
def permute (s : State) : State := roundConstants.foldl round s

/-- The rate of the sponge, in bytes. -/
def rateBytes : Nat := 136

/-- The message followed by the padding `0x01 0x00 … 0x80` up to a multiple of the rate; a
single padding byte is `0x81`. -/
def pad (message : List UInt8) : List UInt8 :=
  let padLength := rateBytes - message.length % rateBytes
  if padLength = 1 then message ++ [0x81]
  else message ++ [0x01] ++ List.replicate (padLength - 2) 0 ++ [0x80]

/-- The lane of eight bytes, least significant first. -/
def laneOfBytes (bytes : List UInt8) : UInt64 :=
  bytes.foldr (fun b acc => (acc <<< 8) ||| b.toUInt64) 0

/-- Eight bytes at a time into lanes; a tail shorter than eight bytes is dropped. -/
def lanesOf : List UInt8 → List UInt64
  | b0 :: b1 :: b2 :: b3 :: b4 :: b5 :: b6 :: b7 :: rest =>
    laneOfBytes [b0, b1, b2, b3, b4, b5, b6, b7] :: lanesOf rest
  | _ => []

/-- The state with a block of lanes added into its first lanes, row by row. -/
def addBlock (s : State) (block : List UInt64) : State :=
  (List.range 5).map fun y => (List.range 5).map fun x => lane s x y ^^^ block.getD (5 * y + x) 0

/-- Absorbs the lanes seventeen at a time, permuting after each block. -/
def absorb (s : State) (lanes : List UInt64) : State :=
  match lanes with
  | [] => s
  | first :: rest => absorb (permute (addBlock s ((first :: rest).take 17))) ((first :: rest).drop 17)
termination_by lanes.length
decreasing_by simp only [List.length_drop, List.length_cons]; omega

/-- The eight bytes of a lane, least significant first. -/
def bytesOfLane (w : UInt64) : List UInt8 :=
  (List.range 8).map fun k => (w >>> (8 * k).toUInt64).toUInt8

/-- The 32-byte Keccak-256 digest of a message: the first four lanes of row `0`. -/
def hash (message : List UInt8) : List UInt8 :=
  let final := absorb State.zero (lanesOf (pad message))
  ((final.headD []).take 4).flatMap bytesOfLane

end LendingSim.Keccak
