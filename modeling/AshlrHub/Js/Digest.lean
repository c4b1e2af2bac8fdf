import AshlrHub.Js.Text
import Mathlib.Algebra.Group.Nat.Defs

namespace AshlrHub.Js.Sha256

open Js

/-! The digest of `createHash('sha256')`. -/

def roundConstants : List UInt32 :=
  [0x428a2f98, 0x71374491, 0xb5c0fbcf, 0xe9b5dba5, 0x3956c25b, 0x59f111f1, 0x923f82a4,
    0xab1c5ed5, 0xd807aa98, 0x12835b01, 0x243185be, 0x550c7dc3, 0x72be5d74, 0x80deb1fe,
    0x9bdc06a7, 0xc19bf174, 0xe49b69c1, 0xefbe4786, 0x0fc19dc6, 0x240ca1cc, 0x2de92c6f,
    0x4a7484aa, 0x5cb0a9dc, 0x76f988da, 0x983e5152, 0xa831c66d, 0xb00327c8, 0xbf597fc7,
    0xc6e00bf3, 0xd5a79147, 0x06ca6351, 0x14292967, 0x27b70a85, 0x2e1b2138, 0x4d2c6dfc,
    0x53380d13, 0x650a7354, 0x766a0abb, 0x81c2c92e, 0x92722c85, 0xa2bfe8a1, 0xa81a664b,
    0xc24b8b70, 0xc76c51a3, 0xd192e819, 0xd6990624, 0xf40e3585, 0x106aa070, 0x19a4c116,
    0x1e376c08, 0x2748774c, 0x34b0bcb5, 0x391c0cb3, 0x4ed8aa4a, 0x5b9cca4f, 0x682e6ff3,
    0x748f82ee, 0x78a5636f, 0x84c87814, 0x8cc70208, 0x90befffa, 0xa4506ceb, 0xbef9a3f7,
    0xc67178f2]

structure State where
  a : UInt32
  b : UInt32
  c : UInt32
  d : UInt32
  e : UInt32
  f : UInt32
  g : UInt32
  h : UInt32

def initial : State :=
  ⟨0x6a09e667, 0xbb67ae85, 0x3c6ef372, 0xa54ff53a, 0x510e527f, 0x9b05688c, 0x1f83d9ab, 0x5be0cd19⟩

def rotateRight (word : UInt32) (count : UInt32) : UInt32 :=
  (word >>> count) ||| (word <<< (32 - count))

def schedule : ℕ → List UInt32 → List UInt32
  | 0, words => words
  | count + 1, words =>
      let early := words.getD 1 0
      let late := words.getD 14 0
      let next := words.getD 0 0 +
        (rotateRight early 7 ^^^ rotateRight early 18 ^^^ (early >>> 3)) +
        words.getD 9 0 + (rotateRight late 17 ^^^ rotateRight late 19 ^^^ (late >>> 10))
      words.getD 0 0 :: schedule count (words.drop 1 ++ [next])

def round (state : State) (step : UInt32 × UInt32) : State :=
  let mixed := state.h +
    (rotateRight state.e 6 ^^^ rotateRight state.e 11 ^^^ rotateRight state.e 25) +
    ((state.e &&& state.f) ^^^ (~~~state.e &&& state.g)) + step.1 + step.2
  let majority := (state.a &&& state.b) ^^^ (state.a &&& state.c) ^^^ (state.b &&& state.c)
  let spread := rotateRight state.a 2 ^^^ rotateRight state.a 13 ^^^ rotateRight state.a 22
  ⟨mixed + (spread + majority), state.a, state.b, state.c, state.d + mixed, state.e, state.f,
    state.g⟩

def compress (state : State) (words : List UInt32) : State :=
  let last := (roundConstants.zip (schedule 48 words)).foldl round state
  ⟨state.a + last.a, state.b + last.b, state.c + last.c, state.d + last.d, state.e + last.e,
    state.f + last.f, state.g + last.g, state.h + last.h⟩

def wordsOf : List UInt8 → List UInt32
  | first :: second :: third :: fourth :: bytes =>
      ((first.toUInt32 <<< 24) ||| (second.toUInt32 <<< 16) ||| (third.toUInt32 <<< 8) |||
        fourth.toUInt32) :: wordsOf bytes
  | _ => []

def pad (bytes : List UInt8) : List UInt8 :=
  let zeros := (119 - bytes.length % 64) % 64
  bytes ++ 0x80 :: List.replicate zeros 0 ++
    (List.range 8).map fun i => UInt8.ofNat (8 * bytes.length / 256 ^ (7 - i))

def compressBlocks : ℕ → State → List UInt32 → State
  | 0, state, _ => state
  | blocks + 1, state, words =>
      compressBlocks blocks (compress state (words.take 16)) (words.drop 16)

def hexDigit (n : ℕ) : CodeUnit :=
  UInt16.ofNat (if n < 10 then 0x30 + n else 0x57 + n)

def wordHex (word : UInt32) : JsString :=
  (List.range 8).map fun i => hexDigit (word.toNat / 16 ^ (7 - i) % 16)

/-- `createHash('sha256').update(bytes).digest('hex')` -/
def digest (bytes : Bytes) : JsString :=
  let words := wordsOf (pad bytes)
  let last := compressBlocks (words.length / 16) initial words
  [last.a, last.b, last.c, last.d, last.e, last.f, last.g, last.h].flatMap wordHex

example : digest (utf8Encode (js "abc")) =
    js "ba7816bf8f01cfea414140de5dae2223b00361a396177a9cb410ff61f20015ad" := by
  decide +kernel

theorem length_digest (bytes : Bytes) : (digest bytes).length = 64 := by
  simp [digest, wordHex]

theorem mem_digest {bytes : Bytes} {unit : CodeUnit} (member : unit ∈ digest bytes) :
    ∃ n < 16, unit = hexDigit n := by
  obtain ⟨word, -, digit⟩ := List.mem_flatMap.mp member
  obtain ⟨i, -, rfl⟩ := List.mem_map.mp digit
  exact ⟨_, Nat.mod_lt _ (by decide), rfl⟩

end AshlrHub.Js.Sha256

namespace AshlrHub.Js.Sha1

open Js Js.Sha256

/-! The digest of `createHash('sha1')`, which pads and reads its words as SHA-256 does. -/

structure Chain where
  a : UInt32
  b : UInt32
  c : UInt32
  d : UInt32
  e : UInt32

def initialChain : Chain :=
  ⟨0x67452301, 0xefcdab89, 0x98badcfe, 0x10325476, 0xc3d2e1f0⟩

def rotateLeft (word : UInt32) (count : UInt32) : UInt32 :=
  (word <<< count) ||| (word >>> (32 - count))

def extend : ℕ → List UInt32 → List UInt32
  | 0, words => words
  | count + 1, words =>
      let next := rotateLeft (words.getD 13 0 ^^^ words.getD 8 0 ^^^ words.getD 2 0 ^^^
        words.getD 0 0) 1
      words.getD 0 0 :: extend count (words.drop 1 ++ [next])

def mixOf (index : ℕ) (chain : Chain) : UInt32 × UInt32 :=
  if index < 20 then ((chain.b &&& chain.c) ||| (~~~chain.b &&& chain.d), 0x5a827999)
  else if index < 40 then (chain.b ^^^ chain.c ^^^ chain.d, 0x6ed9eba1)
  else if index < 60 then
    ((chain.b &&& chain.c) ||| (chain.b &&& chain.d) ||| (chain.c &&& chain.d), 0x8f1bbcdc)
  else (chain.b ^^^ chain.c ^^^ chain.d, 0xca62c1d6)

def turn (chain : Chain) (step : UInt32 × ℕ) : Chain :=
  let mixed := mixOf step.2 chain
  ⟨rotateLeft chain.a 5 + mixed.1 + chain.e + mixed.2 + step.1, chain.a, rotateLeft chain.b 30,
    chain.c, chain.d⟩

def compressBlock (chain : Chain) (words : List UInt32) : Chain :=
  let last := (extend 64 words).zipIdx.foldl turn chain
  ⟨chain.a + last.a, chain.b + last.b, chain.c + last.c, chain.d + last.d, chain.e + last.e⟩

def compressAll : ℕ → Chain → List UInt32 → Chain
  | 0, chain, _ => chain
  | blocks + 1, chain, words =>
      compressAll blocks (compressBlock chain (words.take 16)) (words.drop 16)

/-- `createHash('sha1').update(bytes).digest('hex')` -/
def sha1 (bytes : Bytes) : JsString :=
  let words := wordsOf (pad bytes)
  let last := compressAll (words.length / 16) initialChain words
  [last.a, last.b, last.c, last.d, last.e].flatMap wordHex

example : sha1 (utf8Encode (js "abc")) = js "a9993e364706816aba3e25717850c26c9cd0d89d" := by
  decide +kernel

theorem length_sha1 (bytes : Bytes) : (sha1 bytes).length = 40 := by
  simp [sha1, wordHex]

theorem mem_sha1 {bytes : Bytes} {unit : CodeUnit} (member : unit ∈ sha1 bytes) :
    ∃ n < 16, unit = hexDigit n := by
  obtain ⟨word, -, digit⟩ := List.mem_flatMap.mp member
  obtain ⟨i, -, rfl⟩ := List.mem_map.mp digit
  exact ⟨_, Nat.mod_lt _ (by decide), rfl⟩

end AshlrHub.Js.Sha1
