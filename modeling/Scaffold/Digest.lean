/-!
SHA-256 checksums. A message is padded to whole blocks of 64 bytes with a mark, zeros and its length
in bits; each block updates a state of eight words in 64 rounds.
-/

namespace Scaffold.Digest

/-- The state before the first block. -/
def initial : Array UInt32 :=
  #[0x6a09e667, 0xbb67ae85, 0x3c6ef372, 0xa54ff53a, 0x510e527f, 0x9b05688c, 0x1f83d9ab, 0x5be0cd19]

/-- The constants of the 64 rounds. -/
def roundConstants : Array UInt32 :=
  #[0x428a2f98, 0x71374491, 0xb5c0fbcf, 0xe9b5dba5, 0x3956c25b, 0x59f111f1, 0x923f82a4, 0xab1c5ed5,
    0xd807aa98, 0x12835b01, 0x243185be, 0x550c7dc3, 0x72be5d74, 0x80deb1fe, 0x9bdc06a7, 0xc19bf174,
    0xe49b69c1, 0xefbe4786, 0x0fc19dc6, 0x240ca1cc, 0x2de92c6f, 0x4a7484aa, 0x5cb0a9dc, 0x76f988da,
    0x983e5152, 0xa831c66d, 0xb00327c8, 0xbf597fc7, 0xc6e00bf3, 0xd5a79147, 0x06ca6351, 0x14292967,
    0x27b70a85, 0x2e1b2138, 0x4d2c6dfc, 0x53380d13, 0x650a7354, 0x766a0abb, 0x81c2c92e, 0x92722c85,
    0xa2bfe8a1, 0xa81a664b, 0xc24b8b70, 0xc76c51a3, 0xd192e819, 0xd6990624, 0xf40e3585, 0x106aa070,
    0x19a4c116, 0x1e376c08, 0x2748774c, 0x34b0bcb5, 0x391c0cb3, 0x4ed8aa4a, 0x5b9cca4f, 0x682e6ff3,
    0x748f82ee, 0x78a5636f, 0x84c87814, 0x8cc70208, 0x90befffa, 0xa4506ceb, 0xbef9a3f7, 0xc67178f2]

def rotate (x : UInt32) (n : UInt32) : UInt32 :=
  (x >>> n) ||| (x <<< (32 - n))

/-- The message, the mark byte, the fewest zeros that leave room for the length, and the length. -/
def padded (message : ByteArray) : ByteArray :=
  let zeros := (119 - message.size % 64) % 64
  let bits := message.size * 8
  let marked := (List.replicate zeros (0 : UInt8)).foldl ByteArray.push (message.push 0x80)
  (List.range 8).foldl (fun b i => b.push (bits >>> (8 * (7 - i))).toUInt8) marked

/-- The big-endian word at byte `i`. -/
def wordAt (bytes : ByteArray) (i : Nat) : UInt32 :=
  (List.range 4).foldl (fun w k => (w <<< 8) ||| (bytes[i + k]?.getD 0).toUInt32) 0

/-- The 64 words that a block feeds to the rounds. -/
def schedule (bytes : ByteArray) (start : Nat) : Array UInt32 :=
  let own := (List.range 16).foldl (fun w i => w.push (wordAt bytes (start + 4 * i))) #[]
  (List.range 48).foldl (fun w i =>
    let x := w.getD (i + 1) 0
    let y := w.getD (i + 14) 0
    let s := rotate x 7 ^^^ rotate x 18 ^^^ (x >>> 3)
    let t := rotate y 17 ^^^ rotate y 19 ^^^ (y >>> 10)
    w.push (w.getD i 0 + s + w.getD (i + 9) 0 + t)) own

/-- The state after one more block. -/
def absorb (bytes : ByteArray) (state : Array UInt32) (start : Nat) : Array UInt32 :=
  let w := schedule bytes start
  let out := (List.range 64).foldl (fun s i =>
    let a := s.getD 0 0
    let e := s.getD 4 0
    let choice := (e &&& s.getD 5 0) ^^^ (~~~e &&& s.getD 6 0)
    let most := (a &&& s.getD 1 0) ^^^ (a &&& s.getD 2 0) ^^^ (s.getD 1 0 &&& s.getD 2 0)
    let t := s.getD 7 0 + (rotate e 6 ^^^ rotate e 11 ^^^ rotate e 25) + choice +
      roundConstants.getD i 0 + w.getD i 0
    let u := (rotate a 2 ^^^ rotate a 13 ^^^ rotate a 22) + most
    #[t + u, a, s.getD 1 0, s.getD 2 0, s.getD 3 0 + t, e, s.getD 5 0, s.getD 6 0]) state
  Array.zipWith (· + ·) state out

/-- Eight hexadecimal digits. -/
def hexWord (w : UInt32) : String :=
  .ofList ((List.range 8).map fun i => Nat.digitChar ((w.toNat >>> (4 * (7 - i))) % 16))

/-- The SHA-256 checksum of a message, in hexadecimal. -/
def sha256 (message : ByteArray) : String :=
  let bytes := padded message
  let state := (List.range (bytes.size / 64)).foldl (fun s i => absorb bytes s (64 * i)) initial
  state.foldl (fun text w => text ++ hexWord w) ""

end Scaffold.Digest
