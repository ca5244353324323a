import RenderFarm.Number.Power
import RenderFarm.StorageError

/-!
Pixel dimensions read from the header of an image file. The file's extension says which format its bytes
are read as; bytes of another format are refused.
-/

namespace RenderFarm.Image

/-- Width and height in pixels. -/
structure Size where
  width : UInt32
  height : UInt32
deriving DecidableEq, Repr

/-- The number that some bytes spell, highest byte first. -/
def bigEndian (bytes : List UInt8) : Nat :=
  bytes.foldl (fun acc b => acc * 256 + b.toNat) 0

/-- The number that some bytes spell, lowest byte first. -/
def littleEndian (bytes : List UInt8) : Nat :=
  bigEndian bytes.reverse

/-- A size without an empty side. -/
def size? (width height : Nat) : Option Size :=
  if width = 0 ∨ height = 0 then none else some ⟨UInt32.ofNat width, UInt32.ofNat height⟩

/-- Bytes of a text in ASCII. -/
def ascii (s : String) : List UInt8 :=
  s.toList.map fun c => UInt8.ofNat c.toNat

namespace Png

/-- The eight bytes at the start of every file. -/
def signature : List UInt8 := [0x89, 0x50, 0x4E, 0x47, 0x0D, 0x0A, 0x1A, 0x0A]

/-- One step of the checksum for each of the eight bits of a byte. -/
def checksumBits : Nat → UInt32 → UInt32
  | 0, c => c
  | n + 1, c =>
    checksumBits n (if c &&& 1 = 1 then (c >>> 1) ^^^ 0xEDB88320 else c >>> 1)

/-- The cyclic redundancy check of some bytes. -/
def checksum (bytes : List UInt8) : UInt32 :=
  (bytes.foldl (fun c b => checksumBits 8 (c ^^^ b.toUInt32)) 0xFFFFFFFF) ^^^ 0xFFFFFFFF

/-- The bit depths that go with each colour type. -/
def depthsOf : Nat → List Nat
  | 0 => [1, 2, 4, 8, 16]
  | 2 => [8, 16]
  | 3 => [1, 2, 4, 8]
  | 4 => [8, 16]
  | 6 => [8, 16]
  | _ => []

/-- Whether the chunks up to the image data are sound. An indexed image needs a palette before its data;
a damaged chunk matters when its type starts with a capital letter. -/
def reachesData (indexed : Bool) : Nat → List UInt8 → Bool
  | 0, _ => false
  | bound + 1, s =>
    let length := bigEndian (s.take 4)
    let kind := (s.drop 4).take 4
    if s.length < 8 then false
    else if kind = ascii "IDAT" then !indexed
    else if kind = ascii "IEND" then false
    else if s.length < 12 + length then false
    else
      let sound := (checksum ((s.drop 4).take (4 + length))).toNat ==
        bigEndian ((s.drop (8 + length)).take 4)
      if !sound && (kind.head?.getD 0).toNat < 0x60 then false
      else reachesData (indexed && kind != ascii "PLTE") bound (s.drop (12 + length))

/-- Reads the size of a PNG image. -/
def size? (s : List UInt8) : Option Size :=
  let header := s.drop 16
  let colour := ((header.drop 9).headD 0).toNat
  let depth := ((header.drop 8).headD 0).toNat
  if s.take 8 = signature ∧ bigEndian ((s.drop 8).take 4) = 13 ∧ (s.drop 12).take 4 = ascii "IHDR" ∧
      33 ≤ s.length ∧ (checksum ((s.drop 12).take 17)).toNat = bigEndian ((s.drop 29).take 4) ∧
      (depthsOf colour).contains depth ∧ (header.drop 10).headD 1 = 0 ∧ (header.drop 11).headD 1 = 0 ∧
      ((header.drop 12).headD 2).toNat ≤ 1 ∧ reachesData (colour == 3) s.length (s.drop 33) then
    Image.size? (bigEndian (header.take 4)) (bigEndian ((header.drop 4).take 4))
  else none

end Png

namespace Jpeg

/-- Walks the segments up to the scan and gives the size from the frame header among them. -/
def scan (found : Option Size) : Nat → List UInt8 → Option Size
  | 0, _ => none
  | bound + 1, s =>
    match s with
    | 0xFF :: 0xFF :: rest => scan found bound (0xFF :: rest)
    | 0xFF :: marker :: rest =>
      let length := bigEndian (rest.take 2)
      if marker = 0xDA then found
      else if marker = 0xD9 then none
      else if length < 2 ∨ rest.length < length then none
      else if marker = 0xC0 ∨ marker = 0xC1 ∨ marker = 0xC2 then
        match Image.size? (bigEndian ((rest.drop 5).take 2)) (bigEndian ((rest.drop 3).take 2)) with
        | some size => scan (some size) bound (rest.drop length)
        | none => none
      else scan found bound (rest.drop length)
    | _ => none

/-- Reads the size of a JPEG image. -/
def size? (s : List UInt8) : Option Size :=
  match s with
  | 0xFF :: 0xD8 :: rest => scan none rest.length rest
  | _ => none

end Jpeg

namespace Webp

/-- Reads the size of a lossy frame. -/
def lossySize? (s : List UInt8) : Option Size :=
  match s with
  | tag :: _ :: _ :: 0x9D :: 0x01 :: 0x2A :: a :: b :: c :: d :: _ =>
    if tag &&& 1 = 0 then
      Image.size? (littleEndian [a, b] % 0x4000) (littleEndian [c, d] % 0x4000)
    else none
  | _ => none

/-- Reads the size of a lossless frame. -/
def losslessSize? (s : List UInt8) : Option Size :=
  match s with
  | 0x2F :: a :: b :: c :: d :: _ =>
    let bits := littleEndian [a, b, c, d]
    if bits / twoTo 29 = 0 then
      Image.size? (bits % 0x4000 + 1) (bits / 0x4000 % 0x4000 + 1)
    else none
  | _ => none

/-- Whether a frame follows among the chunks. -/
def hasFrame : Nat → List UInt8 → Bool
  | 0, _ => false
  | bound + 1, s =>
    let kind := s.take 4
    let length := littleEndian ((s.drop 4).take 4)
    if s.length < 8 then false
    else if kind = ascii "VP8 " ∨ kind = ascii "VP8L" ∨ kind = ascii "ANMF" then true
    else hasFrame bound (s.drop (8 + length + length % 2))

/-- Reads the size of a WebP image. -/
def size? (s : List UInt8) : Option Size :=
  if s.take 4 = ascii "RIFF" ∧ (s.drop 8).take 4 = ascii "WEBP" then
    let kind := (s.drop 12).take 4
    let body := s.drop 20
    if kind = ascii "VP8 " then lossySize? body
    else if kind = ascii "VP8L" then losslessSize? body
    else if kind = ascii "VP8X" ∧ 10 ≤ body.length ∧ hasFrame body.length (body.drop 10) then
      Image.size? (littleEndian ((body.drop 4).take 3) + 1) (littleEndian ((body.drop 7).take 3) + 1)
    else none
  else none

end Webp

/-- Reads the size of an image whose file has the given extension. -/
def sizeOfBytes? (ext : String) (s : List UInt8) : Option Size :=
  let ext := Text.lowerAscii ext
  if ext = "png" ∨ ext = "apng" then Png.size? s
  else if ext = "jpg" ∨ ext = "jpeg" ∨ ext = "jfif" then Jpeg.size? s
  else if ext = "webp" then Webp.size? s
  else none

/-- The pixel dimensions of an image file. -/
def dimensions (fs : FileSystem) (p : Path) : Except StorageError Size :=
  match fs.read p with
  | .error _ => .error (.unreadableImage p)
  | .ok bytes =>
    match sizeOfBytes? (p.extension?.getD "") bytes.toList with
    | some size => .ok size
    | none => .error (.unreadableImage p)

end RenderFarm.Image
