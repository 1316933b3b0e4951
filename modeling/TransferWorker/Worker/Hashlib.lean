import TransferWorker.Worker.Utils

/-! # `hashlib` and `hmac`

SHA-256 and HMAC-SHA-256, as far as the worker uses them: the hexadecimal digest of a byte string. -/

namespace TransferWorker

namespace Sha256

/-- A word. -/
abbrev Word := BitVec 32

/-- The round constants. -/
def roundConstants : List Word :=
  [0x428a2f98, 0x71374491, 0xb5c0fbcf, 0xe9b5dba5, 0x3956c25b, 0x59f111f1, 0x923f82a4, 0xab1c5ed5,
    0xd807aa98, 0x12835b01, 0x243185be, 0x550c7dc3, 0x72be5d74, 0x80deb1fe, 0x9bdc06a7, 0xc19bf174,
    0xe49b69c1, 0xefbe4786, 0x0fc19dc6, 0x240ca1cc, 0x2de92c6f, 0x4a7484aa, 0x5cb0a9dc, 0x76f988da,
    0x983e5152, 0xa831c66d, 0xb00327c8, 0xbf597fc7, 0xc6e00bf3, 0xd5a79147, 0x06ca6351, 0x14292967,
    0x27b70a85, 0x2e1b2138, 0x4d2c6dfc, 0x53380d13, 0x650a7354, 0x766a0abb, 0x81c2c92e, 0x92722c85,
    0xa2bfe8a1, 0xa81a664b, 0xc24b8b70, 0xc76c51a3, 0xd192e819, 0xd6990624, 0xf40e3585, 0x106aa070,
    0x19a4c116, 0x1e376c08, 0x2748774c, 0x34b0bcb5, 0x391c0cb3, 0x4ed8aa4a, 0x5b9cca4f, 0x682e6ff3,
    0x748f82ee, 0x78a5636f, 0x84c87814, 0x8cc70208, 0x90befffa, 0xa4506ceb, 0xbef9a3f7, 0xc67178f2]

/-- The eight working words. -/
structure State where
  (a b c d e f g h : Word)

/-- The initial hash value. -/
def State.initial : State :=
  ⟨0x6a09e667, 0xbb67ae85, 0x3c6ef372, 0xa54ff53a, 0x510e527f, 0x9b05688c, 0x1f83d9ab, 0x5be0cd19⟩

/-- One round, with a round constant and a word of the schedule. -/
def State.round (s : State) (k w : Word) : State :=
  let s1 := s.e.rotateRight 6 ^^^ s.e.rotateRight 11 ^^^ s.e.rotateRight 25
  let choice := (s.e &&& s.f) ^^^ (~~~s.e &&& s.g)
  let t1 := s.h + s1 + choice + k + w
  let s0 := s.a.rotateRight 2 ^^^ s.a.rotateRight 13 ^^^ s.a.rotateRight 22
  let majority := (s.a &&& s.b) ^^^ (s.a &&& s.c) ^^^ (s.b &&& s.c)
  ⟨t1 + (s0 + majority), s.a, s.b, s.c, s.d + t1, s.e, s.f, s.g⟩

/-- The message schedule, the last word first: `n` more words after the given ones. -/
def schedule : Nat → List Word → List Word
  | 0, ws => ws
  | n + 1, ws =>
      let w15 := ws.getD 14 0
      let w2 := ws.getD 1 0
      let s0 := w15.rotateRight 7 ^^^ w15.rotateRight 18 ^^^ (w15 >>> 3)
      let s1 := w2.rotateRight 17 ^^^ w2.rotateRight 19 ^^^ (w2 >>> 10)
      schedule n ((ws.getD 15 0 + s0 + ws.getD 6 0 + s1) :: ws)

/-- The compression of one block of sixteen words. -/
def State.compress (s : State) (block : List Word) : State :=
  let t := (List.zip roundConstants (schedule 48 block.reverse).reverse).foldl
    (fun s kw => s.round kw.1 kw.2) s
  ⟨s.a + t.a, s.b + t.b, s.c + t.c, s.d + t.d, s.e + t.e, s.f + t.f, s.g + t.g, s.h + t.h⟩

/-- The big-endian bytes of a number. -/
def bigEndian (count n : Nat) : List UInt8 :=
  (List.range count).reverse.map fun i => UInt8.ofNat (n >>> (8 * i))

/-- The message with its padding. -/
def pad (message : List UInt8) : List UInt8 :=
  message ++ 0x80 :: List.replicate ((119 - message.length % 64) % 64) 0 ++
    bigEndian 8 (8 * message.length)

/-- The words of the bytes. -/
def words : List UInt8 → List Word
  | a :: b :: c :: d :: bytes =>
      BitVec.ofNat 32 (((a.toNat * 256 + b.toNat) * 256 + c.toNat) * 256 + d.toNat) :: words bytes
  | _ => []

/-- Compress so many blocks. -/
def State.absorb : Nat → State → List Word → State
  | 0, s, _ => s
  | n + 1, s, ws => State.absorb n (s.compress (ws.take 16)) (ws.drop 16)

/-- The hash value of a message. -/
def hash (message : List UInt8) : List Word :=
  let padded := pad message
  let s := State.initial.absorb (padded.length / 64) (words padded)
  [s.a, s.b, s.c, s.d, s.e, s.f, s.g, s.h]

/-- `digest()`: the bytes of the hash value. -/
def digest (message : List UInt8) : List UInt8 := (hash message).flatMap fun w => bigEndian 4 w.toNat

/-- A hexadecimal digit. -/
def hexChar (n : Fin 16) : Char := "0123456789abcdef".toList.getD n '0'

/-- The eight hexadecimal digits of a word. -/
def hexWord (w : Word) : List Char :=
  (List.range 8).reverse.map fun i => hexChar (Fin.ofNat 16 (w.toNat >>> (4 * i)))

/-- The digits are in lower case. -/
theorem isLowerHex_hexChar (n : Fin 16) : isLowerHex (hexChar n) = true := by
  revert n
  decide +kernel

/-- A word has eight digits. -/
theorem length_hexWord (w : Word) : (hexWord w).length = 8 := by simp [hexWord]

/-- `hexdigest()` -/
def hexdigest (message : List UInt8) : HexDigest :=
  ⟨String.ofList ((hash message).flatMap hexWord), by
    rw [String.toList_ofList]
    refine ⟨by simp [hash, length_hexWord], ?_⟩
    rw [List.all_eq_true]
    intro c hc
    obtain ⟨w, -, hc⟩ := List.mem_flatMap.1 hc
    obtain ⟨i, -, rfl⟩ := List.mem_map.1 hc
    exact isLowerHex_hexChar _⟩

end Sha256

/-- The key block of HMAC: a key longer than a block is hashed, and zeros follow. -/
def hmacBlock (key : List UInt8) : List UInt8 :=
  let key := if key.length > 64 then Sha256.digest key else key
  key ++ List.replicate (64 - key.length) 0

/-- `hmac.new(key, message, hashlib.sha256).hexdigest()` -/
def hmacHexdigest (key message : List UInt8) : HexDigest :=
  let block := hmacBlock key
  let inner := Sha256.digest (block.map (· ^^^ 0x36) ++ message)
  Sha256.hexdigest (block.map (· ^^^ 0x5c) ++ inner)

/-- **The hash functions of the standard library.** -/
def hashlib : Hashes where
  sha256 content := Sha256.hexdigest content.data.toList
  hmacSha256 key message := hmacHexdigest key.data.toList message.data.toList

example : (hashlib.sha256 "abc".toUTF8).val =
    "ba7816bf8f01cfea414140de5dae2223b00361a396177a9cb410ff61f20015ad" := by decide +kernel

end TransferWorker
