/-
This file defines the BLAKE3 digest of a list of bytes. The bytes are cut into
chunks of 1024, each chunk into blocks of 64. The blocks of a chunk are compressed
in a chain, and the chunks are the leaves of a binary tree whose left subtrees are
complete. The digest is read off the compression at the root.
-/

import PathQuery.Digest.Compression

namespace PathQuery.Digest

/-! ### Bytes and words -/

/-- The number that bytes spell, the least significant byte first. -/
def wordOfBytes (bytes : List UInt8) : UInt32 :=
  bytes.foldr (fun byte word => byte.toUInt32 ||| (word <<< 8)) 0

/-- The four bytes of a word, the least significant byte first. -/
def bytesOfWord (word : UInt32) : List UInt8 :=
  [word.toUInt8, (word >>> 8).toUInt8, (word >>> 16).toUInt8, (word >>> 24).toUInt8]

/-- The block that at most 64 bytes fill; missing bytes are zero. -/
def blockOfBytes (bytes : List UInt8) : Block :=
  let filled := bytes.toArray
  Vector.ofFn fun place : Fin 16 =>
    wordOfBytes ((List.range 4).map fun offset => filled.getD (4 * place.val + offset) 0)

/-- Cuts a list into runs of a given length; the last run may be shorter. -/
def runs {α : Type} (length : Nat) (items : List α) : List (List α) :=
  if items.isEmpty || length = 0 then []
  else items.take length :: runs length (items.drop length)
termination_by items.length
decreasing_by
  rename_i proper
  simp only [Bool.or_eq_true, List.isEmpty_iff, decide_eq_true_eq, not_or] at proper
  have nonempty := List.length_pos_iff.mpr proper.1
  simp only [List.length_drop]
  omega

/-! ### Chunks -/

/-- The flag of the first block of a chunk. -/
def startFlag : UInt32 := 1

/-- The flag of the last block of a chunk. -/
def endFlag : UInt32 := 2

/-- The flag of a node that joins two subtrees. -/
def parentFlag : UInt32 := 4

/-- The flag of the root. -/
def rootFlag : UInt32 := 8

/-- Compresses the blocks of a chunk in a chain, up to the last one, which is left open so that it
can still be marked as the root. -/
def chainBlocks (counter : UInt64) : Chain → UInt32 → List UInt8 → List (List UInt8) → Compression
  | chain, flags, last, [] =>
    ⟨chain, blockOfBytes last, counter, last.length.toUInt32, flags ||| endFlag⟩
  | chain, flags, block, next :: rest =>
    let compressed : Compression :=
      ⟨chain, blockOfBytes block, counter, block.length.toUInt32, flags⟩
    chainBlocks counter compressed.result 0 next rest

/-- The last compression of the chunk with a given number. An empty chunk is one empty block. -/
def chunk (counter : Nat) (bytes : List UInt8) : Compression :=
  match runs 64 bytes with
  | [] => chainBlocks counter.toUInt64 initialChain startFlag [] []
  | first :: rest => chainBlocks counter.toUInt64 initialChain startFlag first rest

/-! ### The tree -/

/-- The compression that joins two subtrees. -/
def join (left right : Compression) : Compression :=
  ⟨initialChain, left.result ++ right.result, 0, 64, parentFlag⟩

/-- The number of leaves of the left subtree of a tree with at least two leaves: the largest power
of two that leaves something for the right subtree. -/
def leftLeaves (leaves : Nat) : Nat :=
  Nat.pow 2 (Nat.log2 (leaves - 1))

/-- The left subtree has a leaf. -/
theorem leftLeaves_pos (leaves : Nat) : 0 < leftLeaves leaves :=
  Nat.two_pow_pos _

/-- The left subtree leaves something for the right one. -/
theorem leftLeaves_lt (leaves : Nat) (several : 2 ≤ leaves) : leftLeaves leaves < leaves := by
  have bound : Nat.pow 2 (Nat.log2 (leaves - 1)) ≤ leaves - 1 :=
    Nat.log2_self_le (by omega)
  unfold leftLeaves
  omega

/-- Joins leaves to a tree whose left subtrees are complete. -/
def tree (first : Compression) (rest : List Compression) : Compression :=
  match rest with
  | [] => first
  | second :: others =>
    let left := leftLeaves (others.length + 2)
    match parts : (first :: second :: others).drop left with
    | [] => first
    | middle :: last =>
      join (tree first ((second :: others).take (left - 1))) (tree middle last)
termination_by rest.length
decreasing_by
  · have bound := leftLeaves_lt (others.length + 2) (by omega)
    simp only [List.length_take, List.length_cons]
    omega
  · have bound := leftLeaves_pos (others.length + 2)
    have size := congrArg List.length parts
    simp only [List.length_drop, List.length_cons] at size
    simp only [List.length_cons]
    omega

/-- The compression at the root of the tree of a list of bytes. -/
def root (bytes : List UInt8) : Compression :=
  let leaves := (runs 1024 bytes).mapIdx chunk
  match leaves with
  | [] => chunk 0 []
  | first :: rest => tree first rest

/-- The thirty-two bytes of the digest. -/
def digest (bytes : List UInt8) : List UInt8 :=
  let top := root bytes
  ({ top with flags := top.flags ||| rootFlag }.result.toList).flatMap bytesOfWord

end PathQuery.Digest
