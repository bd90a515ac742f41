/-
This file defines the compression function of the BLAKE3 digest. It takes a
chaining value of eight words, a block of sixteen words, a counter, the number of
bytes in the block and a set of flags, and mixes them in seven rounds.
-/

namespace PathQuery.Digest

/-- Eight words that carry the digest of everything before a block. -/
abbrev Chain := Vector UInt32 8

/-- Sixteen words: the content of a block, or the state that is mixed. -/
abbrev Block := Vector UInt32 16

/-- The words that every chain of blocks starts from. -/
def initialChain : Chain :=
  #v[0x6a09e667, 0xbb67ae85, 0x3c6ef372, 0xa54ff53a, 0x510e527f, 0x9b05688c, 0x1f83d9ab, 0x5be0cd19]

/-- Where each word of a block comes from in the block of the round before. -/
def wordOrder : Vector (Fin 16) 16 :=
  #v[2, 6, 3, 10, 7, 0, 4, 13, 1, 11, 12, 5, 9, 14, 15, 8]

/-- Rotates a word to the right by fewer than thirty-two places. -/
def rotateRight (word places : UInt32) : UInt32 :=
  (word >>> places) ||| (word <<< (32 - places))

/-- Mixes two words of a block into four words of the state. -/
def mix (state : Block) (a b c d : Fin 16) (first second : UInt32) : Block :=
  let state := state.set a (state[a] + state[b] + first)
  let state := state.set d (rotateRight (state[d] ^^^ state[a]) 16)
  let state := state.set c (state[c] + state[d])
  let state := state.set b (rotateRight (state[b] ^^^ state[c]) 12)
  let state := state.set a (state[a] + state[b] + second)
  let state := state.set d (rotateRight (state[d] ^^^ state[a]) 8)
  let state := state.set c (state[c] + state[d])
  state.set b (rotateRight (state[b] ^^^ state[c]) 7)

/-- One round mixes the four columns of the state and then its four diagonals. -/
def round (state block : Block) : Block :=
  let state := mix state 0 4 8 12 block[0] block[1]
  let state := mix state 1 5 9 13 block[2] block[3]
  let state := mix state 2 6 10 14 block[4] block[5]
  let state := mix state 3 7 11 15 block[6] block[7]
  let state := mix state 0 5 10 15 block[8] block[9]
  let state := mix state 1 6 11 12 block[10] block[11]
  let state := mix state 2 7 8 13 block[12] block[13]
  mix state 3 4 9 14 block[14] block[15]

/-- Runs a number of rounds, reordering the block between two of them. -/
def rounds : Nat → Block → Block → Block
  | 0, state, _ => state
  | count + 1, state, block =>
    rounds count (round state block) (wordOrder.map fun place => block[place])

/-- What is compressed: a block in the context of its chain, its place and its role. -/
structure Compression where
  chain : Chain
  block : Block
  counter : UInt64
  size : UInt32
  flags : UInt32

namespace Compression

/-- The state that the seven rounds start from. -/
def start (input : Compression) : Block :=
  input.chain ++ #v[initialChain[0], initialChain[1], initialChain[2], initialChain[3],
    input.counter.toUInt32, (input.counter >>> 32).toUInt32, input.size, input.flags]

/-- The chaining value after the block: the two halves of the mixed state combined. -/
def result (input : Compression) : Chain :=
  let state := rounds 7 input.start input.block
  Vector.ofFn fun place : Fin 8 =>
    state.get ⟨place.val, by omega⟩ ^^^ state.get ⟨place.val + 8, by omega⟩

end Compression

end PathQuery.Digest
