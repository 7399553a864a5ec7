import ZonKey.ByteCursor

set_option autoImplicit false

namespace ZonKey.Digest
open ByteCursor

def asBytes (text : String) : Bytes := text.toUTF8.data.toList

theorem asBytes_append (a b : String) : asBytes (a ++ b) = asBytes a ++ asBytes b := by
  simp [asBytes]

theorem asBytes_eq_nil {text : String} : asBytes text = [] ↔ text = "" := by
  constructor
  · intro empty
    have size : text.utf8ByteSize = 0 := congrArg List.length empty
    exact String.utf8ByteSize_eq_zero_iff.mp size
  · rintro rfl
    rfl

theorem fromUTF8_asBytes (text : String) :
    String.fromUTF8? ⟨(asBytes text).toArray⟩ = some text := by
  have same : (⟨(asBytes text).toArray⟩ : ByteArray) = text.toUTF8 := by
    simp [asBytes]
  rw [same, String.fromUTF8?]
  exact dif_pos text.isValidUTF8

theorem asBytes_of_fromUTF8 {bytes : Bytes} {text : String}
    (h : String.fromUTF8? ⟨bytes.toArray⟩ = some text) : asBytes text = bytes := by
  unfold String.fromUTF8? at h
  split at h
  · cases h
    rfl
  · cases h

def rotateRight (x n : UInt32) : UInt32 := (x >>> n) ||| (x <<< (32 - n))

def roundConstants : List UInt32 :=
  [0x428a2f98, 0x71374491, 0xb5c0fbcf, 0xe9b5dba5, 0x3956c25b, 0x59f111f1, 0x923f82a4, 0xab1c5ed5,
   0xd807aa98, 0x12835b01, 0x243185be, 0x550c7dc3, 0x72be5d74, 0x80deb1fe, 0x9bdc06a7, 0xc19bf174,
   0xe49b69c1, 0xefbe4786, 0x0fc19dc6, 0x240ca1cc, 0x2de92c6f, 0x4a7484aa, 0x5cb0a9dc, 0x76f988da,
   0x983e5152, 0xa831c66d, 0xb00327c8, 0xbf597fc7, 0xc6e00bf3, 0xd5a79147, 0x06ca6351, 0x14292967,
   0x27b70a85, 0x2e1b2138, 0x4d2c6dfc, 0x53380d13, 0x650a7354, 0x766a0abb, 0x81c2c92e, 0x92722c85,
   0xa2bfe8a1, 0xa81a664b, 0xc24b8b70, 0xc76c51a3, 0xd192e819, 0xd6990624, 0xf40e3585, 0x106aa070,
   0x19a4c116, 0x1e376c08, 0x2748774c, 0x34b0bcb5, 0x391c0cb3, 0x4ed8aa4a, 0x5b9cca4f, 0x682e6ff3,
   0x748f82ee, 0x78a5636f, 0x84c87814, 0x8cc70208, 0x90befffa, 0xa4506ceb, 0xbef9a3f7, 0xc67178f2]

structure HashState where
  a : UInt32
  b : UInt32
  c : UInt32
  d : UInt32
  e : UInt32
  f : UInt32
  g : UInt32
  h : UInt32

def initialState : HashState :=
  ⟨0x6a09e667, 0xbb67ae85, 0x3c6ef372, 0xa54ff53a, 0x510e527f, 0x9b05688c, 0x1f83d9ab, 0x5be0cd19⟩

def beBytes (word : UInt32) : Bytes :=
  [(word >>> 24).toUInt8, (word >>> 16).toUInt8, (word >>> 8).toUInt8, word.toUInt8]

def ofBeBytes : Bytes → UInt32
  | [b₀, b₁, b₂, b₃] =>
    (b₀.toUInt32 <<< 24) ||| (b₁.toUInt32 <<< 16) ||| (b₂.toUInt32 <<< 8) ||| b₃.toUInt32
  | _ => 0

/-- `slice::chunks_exact`: the whole chunks, a shorter rest is dropped. -/
def chunksExact (size : Nat) (bytes : Bytes) : List Bytes :=
  (List.range (bytes.length / size)).map fun index => (bytes.drop (size * index)).take size

/-- The message with its `0x80` mark, zeros up to 56 modulo 64 and the
big-endian bit length. -/
def padMessage (data : Bytes) : Bytes :=
  let bitLength := UInt64.ofNat data.length * 8
  let zeros : Bytes := List.replicate ((119 - data.length % 64) % 64) 0
  data ++ 0x80 :: zeros ++ beBytes (bitLength >>> 32).toUInt32 ++ beBytes bitLength.toUInt32

def extendSchedule (w : List UInt32) : List UInt32 :=
  let index := w.length
  let w15 := w.getD (index - 15) 0
  let w2 := w.getD (index - 2) 0
  let s0 := rotateRight w15 7 ^^^ rotateRight w15 18 ^^^ (w15 >>> 3)
  let s1 := rotateRight w2 17 ^^^ rotateRight w2 19 ^^^ (w2 >>> 10)
  w ++ [w.getD (index - 16) 0 + s0 + w.getD (index - 7) 0 + s1]

def schedule (block : Bytes) : List UInt32 :=
  (List.range 48).foldl (fun w _ => extendSchedule w) ((chunksExact 4 block).map ofBeBytes)

def round (s : HashState) (kw : UInt32 × UInt32) : HashState :=
  let s1 := rotateRight s.e 6 ^^^ rotateRight s.e 11 ^^^ rotateRight s.e 25
  let choose := (s.e &&& s.f) ^^^ (~~~s.e &&& s.g)
  let temp1 := s.h + s1 + choose + kw.1 + kw.2
  let s0 := rotateRight s.a 2 ^^^ rotateRight s.a 13 ^^^ rotateRight s.a 22
  let majority := (s.a &&& s.b) ^^^ (s.a &&& s.c) ^^^ (s.b &&& s.c)
  let temp2 := s0 + majority
  ⟨temp1 + temp2, s.a, s.b, s.c, s.d + temp1, s.e, s.f, s.g⟩

def compress (state : HashState) (block : Bytes) : HashState :=
  let s := (roundConstants.zip (schedule block)).foldl round state
  ⟨state.a + s.a, state.b + s.b, state.c + s.c, state.d + s.d,
    state.e + s.e, state.f + s.f, state.g + s.g, state.h + s.h⟩

def HashState.digest (s : HashState) : List.Vector UInt8 32 :=
  ⟨beBytes s.a ++ beBytes s.b ++ beBytes s.c ++ beBytes s.d ++
    beBytes s.e ++ beBytes s.f ++ beBytes s.g ++ beBytes s.h, rfl⟩

def sha256 (data : Bytes) : List.Vector UInt8 32 :=
  ((chunksExact 64 (padMessage data)).foldl compress initialState).digest

example : ((sha256 (asBytes "abc")).toList.take 4) = [0xba, 0x78, 0x16, 0xbf] := by decide +kernel

def crc32Bit (crc : UInt32) : UInt32 :=
  let mask := 0 - (crc &&& 1)
  (crc >>> 1) ^^^ (0xEDB88320 &&& mask)

def crc32Byte (crc : UInt32) (byte : UInt8) : UInt32 :=
  (List.range 8).foldl (fun crc _ => crc32Bit crc) (crc ^^^ byte.toUInt32)

def crc32 (data : Bytes) : UInt32 := ~~~(data.foldl crc32Byte 0xFFFFFFFF)

example : crc32 (asBytes "123456789") = 0xCBF43926 := by decide +kernel

end ZonKey.Digest
