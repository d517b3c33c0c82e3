import UmlDrawing.Raster.Pixel
import UmlDrawing.Raster.Summary
import UmlDrawing.Text.Encoding

/-! Images as PNG files. The pixels are stored as they are, without compression: each row after a
byte that says so, and all rows in blocks of limited length. -/
namespace UmlDrawing.Raster.Png

open Text (Bytes)

/-- A number in four bytes, the most significant one first. -/
def word (n : Nat) : Bytes := [n / 16777216, n / 65536, n / 256, n].map Nat.toUInt8

/-- A number in two bytes, the least significant one first. -/
def half (n : Nat) : Bytes := [n, n / 256].map Nat.toUInt8

/-- The remainder after one more bit. -/
def crcBit (c : UInt32) : UInt32 :=
  if c &&& 1 = 1 then (0xEDB88320 : UInt32) ^^^ (c >>> 1) else c >>> 1

def crcByte (c : UInt32) (b : UInt8) : UInt32 :=
  crcBit (crcBit (crcBit (crcBit (crcBit (crcBit (crcBit (crcBit (c ^^^ b.toUInt32))))))))

def crc (bytes : Bytes) : UInt32 := bytes.foldl crcByte 0xFFFFFFFF ^^^ 0xFFFFFFFF

/-- The two running sums of some bytes, in one number. -/
def adler (bytes : Bytes) : Nat :=
  let (a, b) := bytes.foldl (fun (a, b) byte =>
    let a := (a + byte.toNat) % 65521
    (a, (b + a) % 65521)) (1, 0)
  b * 65536 + a

def blockLength : Nat := 65535

/-- Some bytes in blocks, the last of which is marked. -/
def blocks (bytes : Bytes) : Bytes :=
  let block := bytes.take blockLength
  let frame := half block.length ++ half (65535 - block.length) ++ block
  if bytes.length ≤ blockLength then 1 :: frame
  else 0 :: (frame ++ blocks (bytes.drop blockLength))
termination_by bytes.length
decreasing_by
  simp only [List.length_drop, blockLength] at *
  omega

/-- Some bytes as a compressed stream holds them. -/
def stream (bytes : Bytes) : Bytes := [0x78, 0x01] ++ blocks bytes ++ word (adler bytes)

/-- A part of a file: its length, what it is for, its content and a checksum. -/
def chunk (kind content : Bytes) : Bytes :=
  word content.length ++ kind ++ content ++ word (crc (kind ++ content)).toNat

def pixelBytes (p : Pixel) : Bytes := [p.r, p.g, p.b, p.a]

def encode (image : Grid Pixel) : Bytes :=
  let rows := image.toLists.flatMap fun row => 0 :: row.flatMap pixelBytes
  [0x89, 0x50, 0x4E, 0x47, 0x0D, 0x0A, 0x1A, 0x0A]
    ++ chunk [0x49, 0x48, 0x44, 0x52]
      (word image.width ++ word image.height ++ [8, 6, 0, 0, 0])
    ++ chunk [0x49, 0x44, 0x41, 0x54] (stream rows)
    ++ chunk [0x49, 0x45, 0x4E, 0x44] []

@[simp] theorem word_length (n : Nat) : (word n).length = 4 := rfl

example : crc ("123456789".toList.map fun c => c.toNat.toUInt8) = 0xCBF43926 := by decide +kernel

example : adler ("abc".toList.map fun c => c.toNat.toUInt8) = 0x024D0127 := by rfl

end UmlDrawing.Raster.Png
