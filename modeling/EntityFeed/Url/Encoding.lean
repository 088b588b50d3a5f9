import EntityFeed.Text.Hex

/-! Percent-encoding. Each part of a URL has a set of ASCII characters that may not stand in it as
they are; a character of the set, or any beyond ASCII, is written as the bytes of its UTF-8 form. -/
namespace EntityFeed.Url

/-- A set of ASCII characters that are encoded. -/
abbrev EncodeSet := Char → Bool

namespace EncodeSet

def controls : EncodeSet := fun c => c.toNat < 0x20 || c.toNat == 0x7F

/-- Some further characters beside those of a set. -/
def adding (s : EncodeSet) (more : String) : EncodeSet := fun c => s c || more.toList.contains c

def fragment : EncodeSet := controls.adding " \"<>\x60"

def query : EncodeSet := controls.adding " \"#<>"

/-- For the schemes with a syntax of their own. -/
def specialQuery : EncodeSet := query.adding "'"

def path : EncodeSet := fragment.adding "#?\x7b\x7d"

def userinfo : EncodeSet := path.adding "/:;=@[\\]^|"

end EncodeSet

def upperHexDigit (n : Nat) : Char :=
  if n < 10 then Char.ofNat (48 + n) else Char.ofNat (55 + n)

def encodeByte (b : UInt8) : List Char :=
  ['%', upperHexDigit (b.toNat / 16), upperHexDigit (b.toNat % 16)]

def encodeChar (s : EncodeSet) (c : Char) : List Char :=
  if s c ∨ 0x80 ≤ c.toNat then (String.utf8EncodeChar c).flatMap encodeByte else [c]

def encode (s : EncodeSet) (cs : List Char) : String := String.ofList (cs.flatMap (encodeChar s))

/-- The bytes of a text, of which some may be written with a percent sign. -/
def decodedBytes : List Char → List UInt8
  | '%' :: a :: b :: rest =>
    match Text.hexValue? a, Text.hexValue? b with
    | some h, some l => UInt8.ofNat (16 * h + l) :: decodedBytes rest
    | _, _ => 0x25 :: decodedBytes (a :: b :: rest)
  | c :: rest => String.utf8EncodeChar c ++ decodedBytes rest
  | [] => []

/-- Undoes the encoding; none if the bytes are no text. -/
def decode? (cs : List Char) : Option (List Char) :=
  (String.fromUTF8? (ByteArray.mk (decodedBytes cs).toArray)).map (·.toList)

example : encode .userinfo "p/w é".toList = "p%2Fw%20%C3%A9" := by decide +kernel

end EntityFeed.Url
