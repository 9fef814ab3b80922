import ConfigRegistry.Bytes

/-!
# BLAKE3

The hash of a byte string, with the default key and thirty-two bytes of output.
The input is cut into chunks of 1024 bytes, a chunk into blocks of 64 bytes, and
the chunks are joined pairwise, level by level, until one node is left.
-/

namespace ConfigRegistry.Digest

/-- Eight words: the value a node hands to its parent. -/
abbrev Chain := Vector UInt32 8

/-- Sixteen words: a message block, or the state of the compression. -/
abbrev Block := Vector UInt32 16

/-- The initial value. -/
def initial : Chain :=
  #v[0x6A09E667, 0xBB67AE85, 0x3C6EF372, 0xA54FF53A, 0x510E527F, 0x9B05688C, 0x1F83D9AB, 0x5BE0CD19]

/-- Rotates a word to the right. -/
def rotate (w : UInt32) (n : UInt32) : UInt32 := (w >>> n) ||| (w <<< (32 - n))

/-- Mixes two message words into four words of the state. -/
def mix (v : Block) (a b c d : Fin 16) (x y : UInt32) : Block :=
  let va := v[a] + v[b] + x
  let vd := rotate (v[d] ^^^ va) 16
  let vc := v[c] + vd
  let vb := rotate (v[b] ^^^ vc) 12
  let va := va + vb + y
  let vd := rotate (vd ^^^ va) 8
  let vc := vc + vd
  let vb := rotate (vb ^^^ vc) 7
  (((v.set a va).set b vb).set c vc).set d vd

/-- One round: the four columns, then the four diagonals. -/
def round (m v : Block) : Block :=
  let v := mix v 0 4 8 12 m[0] m[1]
  let v := mix v 1 5 9 13 m[2] m[3]
  let v := mix v 2 6 10 14 m[4] m[5]
  let v := mix v 3 7 11 15 m[6] m[7]
  let v := mix v 0 5 10 15 m[8] m[9]
  let v := mix v 1 6 11 12 m[10] m[11]
  let v := mix v 2 7 8 13 m[12] m[13]
  mix v 3 4 9 14 m[14] m[15]

/-- The order in which a round reads the words of the round before it. -/
def schedule : Vector (Fin 16) 16 := #v[2, 6, 3, 10, 7, 0, 4, 13, 1, 11, 12, 5, 9, 14, 15, 8]

/-- Reorders a message block for the next round. -/
def permute (m : Block) : Block := schedule.map (m[·])

/-- The given number of rounds, reordering the message between them. -/
def rounds : Nat → Block → Block → Block
  | 0, _, v => v
  | n + 1, m, v => rounds n (permute m) (round m v)

/-- A node of the tree before it is compressed. -/
structure Node where
  chain : Chain
  message : Block
  counter : UInt64
  length : UInt32
  flags : UInt32

/-- Marks the first block of a chunk. -/
def chunkStart : UInt32 := 1
/-- Marks the last block of a chunk. -/
def chunkEnd : UInt32 := 2
/-- Marks a node with two children. -/
def parentNode : UInt32 := 4
/-- Marks the node the output is taken from. -/
def rootNode : UInt32 := 8

/-- The chaining value of a node compressed under additional flags. -/
def Node.output (n : Node) (extra : UInt32) : Chain :=
  let v : Block := #v[n.chain[0], n.chain[1], n.chain[2], n.chain[3],
    n.chain[4], n.chain[5], n.chain[6], n.chain[7],
    initial[0], initial[1], initial[2], initial[3],
    n.counter.toUInt32, (n.counter >>> 32).toUInt32, n.length, n.flags ||| extra]
  let v := rounds 7 n.message v
  #v[v[0] ^^^ v[8], v[1] ^^^ v[9], v[2] ^^^ v[10], v[3] ^^^ v[11],
     v[4] ^^^ v[12], v[5] ^^^ v[13], v[6] ^^^ v[14], v[7] ^^^ v[15]]

/-- The word at an index of a byte string, low byte first; missing bytes are zero. -/
def wordAt (bs : Bytes) (i : Nat) : UInt32 :=
  let byte := fun k => ((bs[4 * i + k]?).getD 0).toUInt32
  byte 0 ||| (byte 1 <<< 8) ||| (byte 2 <<< 16) ||| (byte 3 <<< 24)

/-- A block of at most sixty-four bytes, padded with zeros. -/
def blockOf (bs : Bytes) : Block := Vector.ofFn fun i => wordAt bs i.val

/-- Cuts a byte string into pieces of `size` bytes; the last may be shorter. -/
def pieces (size : Nat) : Nat → Bytes → List Bytes
  | 0, _ => []
  | n + 1, bs => if bs.length ≤ size then [bs] else bs.take size :: pieces size n (bs.drop size)

/-- The last block of a chunk as a node, the blocks before it compressed into its chain. -/
def chunkNode (counter : UInt64) (start : UInt32) (chain : Chain) : List Bytes → Node
  | [] => ⟨chain, blockOf [], counter, 0, start ||| chunkEnd⟩
  | [last] => ⟨chain, blockOf last, counter, last.length.toUInt32, start ||| chunkEnd⟩
  | block :: rest =>
    let node : Node := ⟨chain, blockOf block, counter, block.length.toUInt32, start⟩
    chunkNode counter 0 (node.output 0) rest

/-- The nodes of the chunks, numbered from `counter`. -/
def leaves (counter : Nat) : List Bytes → List Node
  | [] => []
  | chunk :: rest =>
    chunkNode counter.toUInt64 chunkStart initial (pieces 64 (chunk.length + 1) chunk)
      :: leaves (counter + 1) rest

/-- The parent of two nodes. -/
def join (left right : Node) : Node :=
  let l := left.output 0
  let r := right.output 0
  ⟨initial, #v[l[0], l[1], l[2], l[3], l[4], l[5], l[6], l[7],
    r[0], r[1], r[2], r[3], r[4], r[5], r[6], r[7]], 0, 64, parentNode⟩

/-- Joins neighbours; an odd node is carried up unchanged. -/
def joinPairs : List Node → List Node
  | left :: right :: rest => join left right :: joinPairs rest
  | nodes => nodes

/-- Joins level after level until one node is left. -/
def joinAll : Nat → List Node → List Node
  | 0, nodes => nodes
  | n + 1, nodes => if nodes.length ≤ 1 then nodes else joinAll n (joinPairs nodes)

/-- The four bytes of a word, low byte first. -/
def wordBytes (w : UInt32) : Bytes :=
  [w.toUInt8, (w >>> 8).toUInt8, (w >>> 16).toUInt8, (w >>> 24).toUInt8]

/-- The BLAKE3 hash of a byte string. -/
def blake3 (bs : Bytes) : Bytes :=
  let nodes := leaves 0 (pieces 1024 (bs.length + 1) bs)
  match joinAll nodes.length nodes with
  | root :: _ => (root.output rootNode).toList.flatMap wordBytes
  | [] => []

end ConfigRegistry.Digest
