/-
This file computes SHA-256 and RIPEMD-160 and the two compositions of them that transactions use.
-/

import CoinSpend.Bytes

/-! A message is padded to blocks of 64 bytes, which are absorbed one after another. -/

namespace CoinSpend.Digest

def blockSize : Nat := 64

/-- The padding is one set bit, zeros, and the length of the message in bits as eight bytes. -/
def pad (lengthBytes : Nat → Bytes) (message : Bytes) : Bytes :=
  message ++ 0x80 :: List.replicate ((119 - message.length % blockSize) % blockSize) 0 ++
    lengthBytes (8 * message.length)

def absorb {State : Type} (compress : State → Bytes → State) : Nat → State → Bytes → State
  | 0, state, _ => state
  | count + 1, state, rest =>
      absorb compress count (compress state (rest.take blockSize)) (rest.drop blockSize)

/-- This function starts from the initial state and absorbs every block of the padded message. -/
def run {State : Type} (compress : State → Bytes → State) (initial : State)
    (padded : Bytes) : State :=
  absorb compress (padded.length / blockSize) initial padded

/-- Four bytes at a time become one word. -/
def words (word : Bytes → UInt32) : Bytes → List UInt32
  | a :: b :: c :: d :: rest => word [a, b, c, d] :: words word rest
  | _ => []

def rotateLeft (word count : UInt32) : UInt32 := (word <<< count) ||| (word >>> (32 - count))

def rotateRight (word count : UInt32) : UInt32 := (word >>> count) ||| (word <<< (32 - count))

end CoinSpend.Digest

/-! SHA-256. -/

namespace CoinSpend.Digest.Sha256

/-- The chaining value has eight words. -/
structure State where
  a : UInt32
  b : UInt32
  c : UInt32
  d : UInt32
  e : UInt32
  f : UInt32
  g : UInt32
  h : UInt32
deriving DecidableEq

def initial : State :=
  ⟨0x6a09e667, 0xbb67ae85, 0x3c6ef372, 0xa54ff53a, 0x510e527f, 0x9b05688c, 0x1f83d9ab, 0x5be0cd19⟩

def roundConstants : List UInt32 := [
  0x428a2f98, 0x71374491, 0xb5c0fbcf, 0xe9b5dba5, 0x3956c25b, 0x59f111f1, 0x923f82a4, 0xab1c5ed5,
  0xd807aa98, 0x12835b01, 0x243185be, 0x550c7dc3, 0x72be5d74, 0x80deb1fe, 0x9bdc06a7, 0xc19bf174,
  0xe49b69c1, 0xefbe4786, 0x0fc19dc6, 0x240ca1cc, 0x2de92c6f, 0x4a7484aa, 0x5cb0a9dc, 0x76f988da,
  0x983e5152, 0xa831c66d, 0xb00327c8, 0xbf597fc7, 0xc6e00bf3, 0xd5a79147, 0x06ca6351, 0x14292967,
  0x27b70a85, 0x2e1b2138, 0x4d2c6dfc, 0x53380d13, 0x650a7354, 0x766a0abb, 0x81c2c92e, 0x92722c85,
  0xa2bfe8a1, 0xa81a664b, 0xc24b8b70, 0xc76c51a3, 0xd192e819, 0xd6990624, 0xf40e3585, 0x106aa070,
  0x19a4c116, 0x1e376c08, 0x2748774c, 0x34b0bcb5, 0x391c0cb3, 0x4ed8aa4a, 0x5b9cca4f, 0x682e6ff3,
  0x748f82ee, 0x78a5636f, 0x84c87814, 0x8cc70208, 0x90befffa, 0xa4506ceb, 0xbef9a3f7, 0xc67178f2]

def State.round (state : State) (constant word : UInt32) : State :=
  let stir := rotateRight state.e 6 ^^^ rotateRight state.e 11 ^^^ rotateRight state.e 25
  let choice := (state.e &&& state.f) ^^^ (~~~state.e &&& state.g)
  let first := state.h + stir + choice + constant + word
  let spread := rotateRight state.a 2 ^^^ rotateRight state.a 13 ^^^ rotateRight state.a 22
  let majority := (state.a &&& state.b) ^^^ (state.a &&& state.c) ^^^ (state.b &&& state.c)
  ⟨first + (spread + majority), state.a, state.b, state.c, state.d + first, state.e, state.f,
    state.g⟩

def State.add (left right : State) : State :=
  ⟨left.a + right.a, left.b + right.b, left.c + right.c, left.d + right.d, left.e + right.e,
    left.f + right.f, left.g + right.g, left.h + right.h⟩

/-- The window holds sixteen words of the schedule; this is the word that follows them. -/
def nextWord (window : List UInt32) : UInt32 :=
  let early := window.getD 1 0
  let late := window.getD 14 0
  window.getD 0 0 + (rotateRight early 7 ^^^ rotateRight early 18 ^^^ (early >>> 3)) +
    window.getD 9 0 + (rotateRight late 17 ^^^ rotateRight late 19 ^^^ (late >>> 10))

def step (progress : State × List UInt32) (constant : UInt32) : State × List UInt32 :=
  (progress.1.round constant (progress.2.getD 0 0),
    progress.2.drop 1 ++ [nextWord progress.2])

def bigEndianWord (bytes : Bytes) : UInt32 := UInt32.ofNat (ofBigEndian bytes)

def compress (state : State) (block : Bytes) : State :=
  state.add (roundConstants.foldl step (state, words bigEndianWord block)).1

def State.words (state : State) : List UInt32 :=
  [state.a, state.b, state.c, state.d, state.e, state.f, state.g, state.h]

def wordBytes (word : UInt32) : Bytes := toBigEndian 4 word.toNat

def State.octets (state : State) : Octets 32 :=
  ⟨state.words.flatMap wordBytes, by simp [State.words, wordBytes]⟩

def hash (message : Bytes) : Octets 32 :=
  (run compress initial (pad (toBigEndian 8) message)).octets

end CoinSpend.Digest.Sha256

/-! RIPEMD-160. -/

namespace CoinSpend.Digest.Ripemd160

/-- The chaining value has five words. -/
structure State where
  a : UInt32
  b : UInt32
  c : UInt32
  d : UInt32
  e : UInt32
deriving DecidableEq

def initial : State := ⟨0x67452301, 0xefcdab89, 0x98badcfe, 0x10325476, 0xc3d2e1f0⟩

/-- The five mixing functions of the rounds. -/
inductive Mixing where
  | parity
  | choice
  | orNot
  | swappedChoice
  | parityNot
deriving DecidableEq

def Mixing.apply (x y z : UInt32) : Mixing → UInt32
  | .parity => x ^^^ y ^^^ z
  | .choice => (x &&& y) ||| (~~~x &&& z)
  | .orNot => (x ||| ~~~y) ^^^ z
  | .swappedChoice => (x &&& z) ||| (y &&& ~~~z)
  | .parityNot => x ^^^ (y ||| ~~~z)

/-- A step takes the word at an index and rotates by a shift. -/
structure Step where
  index : Nat
  shift : UInt32

/-- A round applies one mixing function and one constant to sixteen steps. -/
structure Round where
  mixing : Mixing
  constant : UInt32
  steps : List Step

def steps (indices : List Nat) (shifts : List UInt32) : List Step :=
  List.zipWith Step.mk indices shifts

def leftLine : List Round := [
  ⟨.parity, 0x00000000, steps
    [0, 1, 2, 3, 4, 5, 6, 7, 8, 9, 10, 11, 12, 13, 14, 15]
    [11, 14, 15, 12, 5, 8, 7, 9, 11, 13, 14, 15, 6, 7, 9, 8]⟩,
  ⟨.choice, 0x5a827999, steps
    [7, 4, 13, 1, 10, 6, 15, 3, 12, 0, 9, 5, 2, 14, 11, 8]
    [7, 6, 8, 13, 11, 9, 7, 15, 7, 12, 15, 9, 11, 7, 13, 12]⟩,
  ⟨.orNot, 0x6ed9eba1, steps
    [3, 10, 14, 4, 9, 15, 8, 1, 2, 7, 0, 6, 13, 11, 5, 12]
    [11, 13, 6, 7, 14, 9, 13, 15, 14, 8, 13, 6, 5, 12, 7, 5]⟩,
  ⟨.swappedChoice, 0x8f1bbcdc, steps
    [1, 9, 11, 10, 0, 8, 12, 4, 13, 3, 7, 15, 14, 5, 6, 2]
    [11, 12, 14, 15, 14, 15, 9, 8, 9, 14, 5, 6, 8, 6, 5, 12]⟩,
  ⟨.parityNot, 0xa953fd4e, steps
    [4, 0, 5, 9, 7, 12, 2, 10, 14, 1, 3, 8, 11, 6, 15, 13]
    [9, 15, 5, 11, 6, 8, 13, 12, 5, 12, 13, 14, 11, 8, 5, 6]⟩]

def rightLine : List Round := [
  ⟨.parityNot, 0x50a28be6, steps
    [5, 14, 7, 0, 9, 2, 11, 4, 13, 6, 15, 8, 1, 10, 3, 12]
    [8, 9, 9, 11, 13, 15, 15, 5, 7, 7, 8, 11, 14, 14, 12, 6]⟩,
  ⟨.swappedChoice, 0x5c4dd124, steps
    [6, 11, 3, 7, 0, 13, 5, 10, 14, 15, 8, 12, 4, 9, 1, 2]
    [9, 13, 15, 7, 12, 8, 9, 11, 7, 7, 12, 7, 6, 15, 13, 11]⟩,
  ⟨.orNot, 0x6d703ef3, steps
    [15, 5, 1, 3, 7, 14, 6, 9, 11, 8, 12, 2, 10, 0, 4, 13]
    [9, 7, 15, 11, 8, 6, 6, 14, 12, 13, 5, 14, 13, 13, 7, 5]⟩,
  ⟨.choice, 0x7a6d76e9, steps
    [8, 6, 4, 1, 3, 11, 15, 0, 5, 12, 2, 13, 9, 7, 10, 14]
    [15, 5, 8, 11, 14, 14, 6, 14, 6, 9, 12, 9, 12, 5, 15, 8]⟩,
  ⟨.parity, 0x00000000, steps
    [12, 15, 10, 4, 1, 5, 8, 7, 6, 2, 13, 14, 0, 3, 9, 11]
    [8, 5, 12, 9, 12, 5, 14, 6, 8, 13, 6, 5, 15, 13, 11, 11]⟩]

def State.step (block : List UInt32) (mixing : Mixing) (constant : UInt32) (state : State)
    (step : Step) : State :=
  let mixed := state.a + mixing.apply state.b state.c state.d + block.getD step.index 0 + constant
  ⟨state.e, rotateLeft mixed step.shift + state.e, state.b, rotateLeft state.c 10, state.d⟩

def State.round (block : List UInt32) (state : State) (round : Round) : State :=
  round.steps.foldl (State.step block round.mixing round.constant) state

/-- The two lines are joined crosswise with the chaining value. -/
def State.join (state left right : State) : State :=
  ⟨state.b + left.c + right.d, state.c + left.d + right.e, state.d + left.e + right.a,
    state.e + left.a + right.b, state.a + left.b + right.c⟩

def littleEndianWord (bytes : Bytes) : UInt32 := UInt32.ofNat (ofLittleEndian bytes)

def compress (state : State) (block : Bytes) : State :=
  let blockWords := words littleEndianWord block
  state.join (leftLine.foldl (State.round blockWords) state)
    (rightLine.foldl (State.round blockWords) state)

def State.words (state : State) : List UInt32 :=
  [state.a, state.b, state.c, state.d, state.e]

def wordBytes (word : UInt32) : Bytes := toLittleEndian 4 word.toNat

def State.octets (state : State) : Octets 20 :=
  ⟨state.words.flatMap wordBytes, by simp [State.words, wordBytes]⟩

def hash (message : Bytes) : Octets 20 :=
  (run compress initial (pad (toLittleEndian 8) message)).octets

end CoinSpend.Digest.Ripemd160

namespace CoinSpend.Digest

/-- SHA-256 is applied twice to transactions and preimages. -/
def doubleSha256 (message : Bytes) : Octets 32 := Sha256.hash (Sha256.hash message).bytes

/-- The key hash is what a locking script names. -/
def keyHash (key : Bytes) : Octets 20 := Ripemd160.hash (Sha256.hash key).bytes

end CoinSpend.Digest
