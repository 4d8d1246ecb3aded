/-!
# The BLAKE3 digest

The input is cut into chunks of 1024 bytes, the chunks are the leaves of a binary tree whose left
subtrees are full, and every node is compressed to a chaining value of eight words; the digest is
the first 32 bytes that the root gives.

A node is kept as the pending arguments of its compression (`Node`), because only the caller knows
whether it is the root.
-/

namespace RecordTree.Blake3

/-- Eight words, the size of a chaining value. -/
abbrev Chain := Vector UInt32 8

/-- Sixteen words, the size of a message block. -/
abbrev Block := Vector UInt32 16

/-- The initial chaining value. -/
def initialChain : Chain :=
  #v[0x6A09E667, 0xBB67AE85, 0x3C6EF372, 0xA54FF53A,
     0x510E527F, 0x9B05688C, 0x1F83D9AB, 0x5BE0CD19]

/-- The order in which a round reads the words of the round before. -/
def permutation : Vector (Fin 16) 16 :=
  #v[2, 6, 3, 10, 7, 0, 4, 13, 1, 11, 12, 5, 9, 14, 15, 8]

/-- The size of a block in bytes. -/
def blockSize : Nat := 64

/-- The size of a chunk in bytes. -/
def chunkSize : Nat := 1024

/-- Marks the first block of a chunk. -/
def chunkStart : UInt32 := 1
/-- Marks the last block of a chunk. -/
def chunkEnd : UInt32 := 2
/-- Marks a node above the chunks. -/
def parent : UInt32 := 4
/-- Marks the root. -/
def root : UInt32 := 8

/-- Rotates a word to the right. -/
def rotateRight (w n : UInt32) : UInt32 := (w >>> n) ||| (w <<< (32 - n))

/-- Mixes two message words into four words of the state. -/
def mix (v : Block) (a b c d : Fin 16) (x y : UInt32) : Block :=
  let v := v.set a (v[a] + v[b] + x)
  let v := v.set d (rotateRight (v[d] ^^^ v[a]) 16)
  let v := v.set c (v[c] + v[d])
  let v := v.set b (rotateRight (v[b] ^^^ v[c]) 12)
  let v := v.set a (v[a] + v[b] + y)
  let v := v.set d (rotateRight (v[d] ^^^ v[a]) 8)
  let v := v.set c (v[c] + v[d])
  v.set b (rotateRight (v[b] ^^^ v[c]) 7)

/-- One round: the columns of the state, then its diagonals. -/
def round (v m : Block) : Block :=
  let v := mix v 0 4 8 12 m[0] m[1]
  let v := mix v 1 5 9 13 m[2] m[3]
  let v := mix v 2 6 10 14 m[4] m[5]
  let v := mix v 3 7 11 15 m[6] m[7]
  let v := mix v 0 5 10 15 m[8] m[9]
  let v := mix v 1 6 11 12 m[10] m[11]
  let v := mix v 2 7 8 13 m[12] m[13]
  mix v 3 4 9 14 m[14] m[15]

/-- Runs rounds, permuting the message between them. -/
def rounds : Nat → Block → Block → Block
  | 0, v, _ => v
  | n + 1, v, m => rounds n (round v m) (permutation.map fun i => m[i])

/-- The pending arguments of a compression. -/
structure Node where
  chain : Chain
  block : Block
  counter : Nat
  length : Nat
  flags : UInt32

namespace Node

/-- The chaining value of a node, with flags added to its own. -/
def compress (n : Node) (flags : UInt32) : Chain :=
  let state : Block := n.chain ++ #v[
    initialChain[0], initialChain[1], initialChain[2], initialChain[3],
    UInt32.ofNat n.counter, UInt32.ofNat (n.counter / Nat.pow 2 32), UInt32.ofNat n.length,
    n.flags ||| flags]
  let v := rounds 7 state n.block
  Vector.ofFn fun i : Fin 8 => v[i.val] ^^^ v[i.val + 8]

end Node

/-- A byte of the input, zero past its end. -/
def byteAt (input : ByteArray) (i : Nat) : UInt32 := (input[i]?.getD 0).toUInt32

/-- The block that starts at an offset, filled up with zeros. -/
def blockAt (input : ByteArray) (start stop : Nat) : Block :=
  Vector.ofFn fun w : Fin 16 =>
    let byte := fun k => let i := start + 4 * w.val + k; if i < stop then byteAt input i else 0
    byte 0 ||| (byte 1 <<< 8) ||| (byte 2 <<< 16) ||| (byte 3 <<< 24)

/-- The node of a chunk, given the blocks still to be read. -/
def chunkFrom (input : ByteArray) (stop counter : Nat) : Nat → Nat → Chain → UInt32 → Node
  | 0, start, chain, flags =>
    ⟨chain, blockAt input start stop, counter, stop - start, flags ||| chunkEnd⟩
  | more + 1, start, chain, flags =>
    let node : Node := ⟨chain, blockAt input start stop, counter, blockSize, flags⟩
    chunkFrom input stop counter more (start + blockSize) (node.compress 0) 0

/-- The node of the chunk between two offsets. -/
def chunk (input : ByteArray) (start stop : Nat) : Node :=
  chunkFrom input stop (start / chunkSize) ((stop - start - 1) / blockSize) start initialChain
    chunkStart

/-- How many bytes the left subtree of a tree takes: the largest power of two of chunks that leaves
something to the right. -/
def leftSize (size : Nat) : Nat := chunkSize * Nat.pow 2 ((size - 1) / chunkSize).log2

theorem leftSize_lt {size : Nat} (h : chunkSize < size) : leftSize size < size := by
  have hc : chunkSize = 1024 := rfl
  have hpos : (size - 1) / chunkSize ≠ 0 := by
    have := Nat.div_le_div_right (c := chunkSize) (show chunkSize ≤ size - 1 by omega)
    rw [Nat.div_self (by omega)] at this
    omega
  have hlog : Nat.pow 2 ((size - 1) / chunkSize).log2 ≤ (size - 1) / chunkSize := Nat.log2_self_le hpos
  have := Nat.mul_le_mul_left chunkSize hlog
  have := Nat.mul_div_le (size - 1) chunkSize
  simp only [leftSize]
  omega

theorem leftSize_pos (size : Nat) : 0 < leftSize size :=
  Nat.mul_pos (by decide) (Nat.two_pow_pos _)

/-- The tree over the bytes between two offsets. -/
def tree (input : ByteArray) (start size : Nat) : Node :=
  if _h : chunkSize < size then
    let left := tree input start (leftSize size)
    let right := tree input (start + leftSize size) (size - leftSize size)
    ⟨initialChain, left.compress 0 ++ right.compress 0, 0, blockSize, parent⟩
  else chunk input start (start + size)
termination_by size
decreasing_by
  · exact leftSize_lt ‹_›
  · have := leftSize_pos size; omega

/-- The digest of an input, as 32 bytes. -/
def digest (input : ByteArray) : List UInt8 :=
  let chain := (tree input 0 input.size).compress root
  chain.toList.flatMap fun w : UInt32 =>
    [w.toUInt8, (w >>> 8).toUInt8, (w >>> 16).toUInt8, (w >>> 24).toUInt8]

end RecordTree.Blake3
