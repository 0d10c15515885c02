/-
SHA-256 over lists of bytes.

A message is padded to whole blocks of sixty-four bytes; each block is expanded to
sixty-four words and folded into a state of eight words, and the digest is the bytes
of the last state.  The state is a structure of eight fields, so that a digest has
thirty-two bytes by its shape alone.
-/

namespace UrlReservations.Sha256

/-- The eight words that the blocks of a message are folded into. -/
structure State where
  (a b c d e f g h : UInt32)

/-- The state before the first block. -/
def initialState : State :=
  ⟨0x6a09e667, 0xbb67ae85, 0x3c6ef372, 0xa54ff53a, 0x510e527f, 0x9b05688c, 0x1f83d9ab, 0x5be0cd19⟩

/-- One constant for each of the sixty-four rounds. -/
def roundConstants : List UInt32 :=
  [0x428a2f98, 0x71374491, 0xb5c0fbcf, 0xe9b5dba5, 0x3956c25b, 0x59f111f1, 0x923f82a4, 0xab1c5ed5,
   0xd807aa98, 0x12835b01, 0x243185be, 0x550c7dc3, 0x72be5d74, 0x80deb1fe, 0x9bdc06a7, 0xc19bf174,
   0xe49b69c1, 0xefbe4786, 0x0fc19dc6, 0x240ca1cc, 0x2de92c6f, 0x4a7484aa, 0x5cb0a9dc, 0x76f988da,
   0x983e5152, 0xa831c66d, 0xb00327c8, 0xbf597fc7, 0xc6e00bf3, 0xd5a79147, 0x06ca6351, 0x14292967,
   0x27b70a85, 0x2e1b2138, 0x4d2c6dfc, 0x53380d13, 0x650a7354, 0x766a0abb, 0x81c2c92e, 0x92722c85,
   0xa2bfe8a1, 0xa81a664b, 0xc24b8b70, 0xc76c51a3, 0xd192e819, 0xd6990624, 0xf40e3585, 0x106aa070,
   0x19a4c116, 0x1e376c08, 0x2748774c, 0x34b0bcb5, 0x391c0cb3, 0x4ed8aa4a, 0x5b9cca4f, 0x682e6ff3,
   0x748f82ee, 0x78a5636f, 0x84c87814, 0x8cc70208, 0x90befffa, 0xa4506ceb, 0xbef9a3f7, 0xc67178f2]

/-- Rotation of a word to the right. -/
def rotateRight (x n : UInt32) : UInt32 := (x >>> n) ||| (x <<< (32 - n))

/-- The mixing of the word fifteen places back. -/
def scheduleNear (x : UInt32) : UInt32 := rotateRight x 7 ^^^ rotateRight x 18 ^^^ (x >>> 3)

/-- The mixing of the word two places back. -/
def scheduleFar (x : UInt32) : UInt32 := rotateRight x 17 ^^^ rotateRight x 19 ^^^ (x >>> 10)

/-! ### From bytes to words and back -/

/-- The bytes of a word, most significant first. -/
def wordBytes (x : UInt32) : List UInt8 :=
  [(x >>> 24).toUInt8, (x >>> 16).toUInt8, (x >>> 8).toUInt8, x.toUInt8]

/-- The words of a run of bytes, four bytes each, most significant first. -/
def wordsOf : List UInt8 → List UInt32
  | a :: b :: c :: d :: rest =>
    ((a.toUInt32 <<< 24) ||| (b.toUInt32 <<< 16) ||| (c.toUInt32 <<< 8) ||| d.toUInt32) ::
      wordsOf rest
  | _ => []

/-- The eight bytes of a length in bits, most significant first. -/
def lengthBytes (bits : Nat) : List UInt8 :=
  (List.range 8).reverse.map fun i => UInt8.ofNat (bits >>> (8 * i))

/--
A message followed by a single bit, zeros up to eight bytes before the end of a block, and its
length.
-/
def pad (message : List UInt8) : List UInt8 :=
  message ++ 0x80 :: List.replicate ((119 - message.length % 64) % 64) 0 ++
    lengthBytes (8 * message.length)

/-- The whole blocks of sixty-four bytes in a run of bytes. -/
def blocks (bytes : List UInt8) : List (List UInt8) :=
  (List.range (bytes.length / 64)).map fun i => (bytes.drop (64 * i)).take 64

/-! ### Folding a block -/

/--
Add words to a schedule, each computed from the sixteen before it; the
schedule is kept latest first.
-/
def extendSchedule : Nat → List UInt32 → List UInt32
  | 0, latest => latest
  | count + 1, latest =>
    let word := scheduleFar (latest.getD 1 0) + latest.getD 6 0 + scheduleNear (latest.getD 14 0)
      + latest.getD 15 0
    extendSchedule count (word :: latest)

/-- The sixty-four words that a block expands to. -/
def schedule (block : List UInt8) : List UInt32 :=
  (extendSchedule 48 (wordsOf block).reverse).reverse

/-- One round, with its constant and its schedule word. -/
def round (s : State) (constant word : UInt32) : State :=
  let mixE := rotateRight s.e 6 ^^^ rotateRight s.e 11 ^^^ rotateRight s.e 25
  let choice := (s.e &&& s.f) ^^^ (~~~s.e &&& s.g)
  let first := s.h + mixE + choice + constant + word
  let mixA := rotateRight s.a 2 ^^^ rotateRight s.a 13 ^^^ rotateRight s.a 22
  let majority := (s.a &&& s.b) ^^^ (s.a &&& s.c) ^^^ (s.b &&& s.c)
  ⟨first + mixA + majority, s.a, s.b, s.c, s.d + first, s.e, s.f, s.g⟩

/-- Fold one block into a state. -/
def compress (s : State) (block : List UInt8) : State :=
  let t :=
    (roundConstants.zip (schedule block)).foldl (fun t (constant, word) => round t constant word) s
  ⟨s.a + t.a, s.b + t.b, s.c + t.c, s.d + t.d, s.e + t.e, s.f + t.f, s.g + t.g, s.h + t.h⟩

/-- The bytes of a state. -/
def State.bytes (s : State) : List UInt8 :=
  [s.a, s.b, s.c, s.d, s.e, s.f, s.g, s.h].flatMap wordBytes

/-- The digest of a message. -/
def digest (message : List UInt8) : List UInt8 :=
  ((blocks (pad message)).foldl compress initialState).bytes

/-- A digest has thirty-two bytes. -/
@[simp] theorem length_digest (message : List UInt8) : (digest message).length = 32 := rfl

end UrlReservations.Sha256
