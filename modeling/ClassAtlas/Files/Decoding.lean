/-! Reading bytes as text, in an encoding that is looked up by its name. Bytes that fit no character become
replacement characters, in UTF-8 one for each longest stretch that could have begun a character; some
encodings do not read all bytes even so. Every sort of line end becomes a line feed. -/

namespace ClassAtlas.Files

def replacement : Char := '\uFFFD'

/-- How a byte continues a character: how many bytes are to follow, the bits it gives, and the range
that the next byte must lie in. -/
structure LeadByte where
  following : Nat
  bits : Nat
  least : Nat
  greatest : Nat

def leadByte? (b : Nat) : Option LeadByte :=
  if b < 0xC2 then none
  else if b < 0xE0 then some ⟨1, b - 0xC0, 0x80, 0xBF⟩
  else if b = 0xE0 then some ⟨2, 0, 0xA0, 0xBF⟩
  else if b = 0xED then some ⟨2, 0xD, 0x80, 0x9F⟩
  else if b < 0xF0 then some ⟨2, b - 0xE0, 0x80, 0xBF⟩
  else if b = 0xF0 then some ⟨3, 0, 0x90, 0xBF⟩
  else if b < 0xF4 then some ⟨3, b - 0xF0, 0x80, 0xBF⟩
  else if b = 0xF4 then some ⟨3, 4, 0x80, 0x8F⟩
  else none

/-- The character so far: bytes still to come, its bits, and the range of the next byte. -/
inductive Pending where
  | between
  | inside (following bits least greatest : Nat)

/-- A byte at the start of a character. -/
def startChar (b : Nat) : List Char × Pending :=
  if b < 0x80 then ([Char.ofNat b], .between)
  else
    match leadByte? b with
    | some lead => ([], .inside lead.following lead.bits lead.least lead.greatest)
    | none => ([replacement], .between)

/-- What one more byte gives. A byte that does not fit ends the stretch before it and starts anew. -/
def stepByte (pending : Pending) (b : Nat) : List Char × Pending :=
  match pending with
  | .between => startChar b
  | .inside following bits least greatest =>
    if least ≤ b && b ≤ greatest then
      let bits := bits * 64 + (b - 0x80)
      if following ≤ 1 then ([Char.ofNat bits], .between)
      else ([], .inside (following - 1) bits 0x80 0xBF)
    else
      let (cs, next) := startChar b
      (replacement :: cs, next)

/-- The characters of the bytes that follow on a character so far. -/
def utf8From : Pending → List UInt8 → List Char
  | .between, [] => []
  | .inside .., [] => [replacement]
  | pending, b :: rest =>
    let (cs, next) := stepByte pending b.toNat
    cs ++ utf8From next rest

def utf8 (bytes : List UInt8) : List Char := utf8From .between bytes

/-- UTF-8 behind a mark, which may be missing. A beginning of a mark that nothing follows gives nothing. -/
def utf8Marked (bytes : List UInt8) : List Char :=
  match bytes with
  | [0xEF] | [0xEF, 0xBB] => []
  | 0xEF :: 0xBB :: 0xBF :: rest => utf8 rest
  | _ => utf8 bytes

def asciiChar (b : Nat) : Char := if b < 0x80 then Char.ofNat b else replacement

/-- Latin-1 with the euro sign and seven more characters in the place of others. -/
def latin9Char (b : Nat) : Char :=
  match [(0xA4, 0x20AC), (0xA6, 0x160), (0xA8, 0x161), (0xB4, 0x17D), (0xB8, 0x17E), (0xBC, 0x152),
    (0xBD, 0x153), (0xBE, 0x178)].lookup b with
  | some n => Char.ofNat n
  | none => Char.ofNat b

/-- The characters of the bytes 80 to 9F on Western desktops; zero where there is none. -/
def westernHigh : List Nat := [
  0x20AC, 0, 0x201A, 0x0192, 0x201E, 0x2026, 0x2020, 0x2021, 0x02C6, 0x2030, 0x0160, 0x2039, 0x0152,
  0, 0x017D, 0, 0, 0x2018, 0x2019, 0x201C, 0x201D, 0x2022, 0x2013, 0x2014, 0x02DC, 0x2122, 0x0161,
  0x203A, 0x0153, 0, 0x017E, 0x0178]

def westernChar (b : Nat) : Char :=
  if 0x80 ≤ b && b < 0xA0 then
    match westernHigh[b - 0x80]? with
    | some 0 | none => replacement
    | some n => Char.ofNat n
  else Char.ofNat b

/-- Units of two bytes; a lone last byte is none. -/
def pairs (bigEndian : Bool) : List UInt8 → List Nat × Bool
  | a :: b :: rest =>
    let unit := if bigEndian then a.toNat * 256 + b.toNat else b.toNat * 256 + a.toNat
    let (others, odd) := pairs bigEndian rest
    (unit :: others, odd)
  | [_] => ([], true)
  | [] => ([], false)

def isSurrogate (u : Nat) : Bool := 0xD800 ≤ u && u < 0xE000

/-- The character of a number, if it has one. -/
def codePoint (u : Nat) : Char := if isSurrogate u || 0x110000 ≤ u then replacement else Char.ofNat u

def isHighSurrogate (u : Nat) : Bool := 0xD800 ≤ u && u < 0xDC00

/-- The characters of units. A lone byte behind them belongs to the half of a pair, if there is one. -/
def charsOfUnits (odd : Bool) : List Nat → List Char
  | [] => if odd then [replacement] else []
  | [u] => codePoint u :: if odd && !isHighSurrogate u then [replacement] else []
  | u :: v :: rest =>
    if isHighSurrogate u && 0xDC00 ≤ v && v < 0xE000 then
      Char.ofNat (0x10000 + (u - 0xD800) * 0x400 + (v - 0xDC00)) :: charsOfUnits odd rest
    else codePoint u :: charsOfUnits odd (v :: rest)

def utf16 (bigEndian : Bool) (bytes : List UInt8) : List Char :=
  let (found, odd) := pairs bigEndian bytes
  charsOfUnits odd found

def utf32 (bigEndian : Bool) : List UInt8 → List Char
  | a :: b :: c :: d :: rest =>
    let (high, low) := if bigEndian then ((a, b), (c, d)) else ((d, c), (b, a))
    let unit := ((high.1.toNat * 256 + high.2.toNat) * 256 + low.1.toNat) * 256 + low.2.toNat
    codePoint unit :: utf32 bigEndian rest
  | [] => []
  | _ => [replacement]

/-- Turns bytes into characters, or gives the reason why they cannot be read. -/
abbrev Decoder := List UInt8 → Except String (List Char)

/-- Encodings by their names. -/
abbrev Codecs := String → Option Decoder

inductive Encoding where
  | utf8
  | utf8Marked
  | ascii
  | latin1
  | latin9
  | western
  | utf16
  | utf16le
  | utf16be
  | utf32
  | utf32le
  | utf32be
deriving Repr, DecidableEq

namespace Encoding

/-- Without a mark for the order of bytes, the wide encodings that ask for one cannot be read. -/
def decode (e : Encoding) : Decoder := fun bytes =>
  match e with
  | utf8 => .ok (Files.utf8 bytes)
  | utf8Marked => .ok (Files.utf8Marked bytes)
  | ascii => .ok (bytes.map fun b => asciiChar b.toNat)
  | latin1 => .ok (bytes.map fun b => Char.ofNat b.toNat)
  | latin9 => .ok (bytes.map fun b => latin9Char b.toNat)
  | western => .ok (bytes.map fun b => westernChar b.toNat)
  | utf16 =>
    match bytes with
    | 0xFE :: 0xFF :: rest => .ok (Files.utf16 true rest)
    | 0xFF :: 0xFE :: rest => .ok (Files.utf16 false rest)
    | _ :: _ :: _ => .error "UTF-16 stream does not start with BOM"
    | _ => .ok (Files.utf16 false bytes)
  | utf16le => .ok (Files.utf16 false bytes)
  | utf16be => .ok (Files.utf16 true bytes)
  | utf32 =>
    match bytes with
    | 0 :: 0 :: 0xFE :: 0xFF :: rest => .ok (Files.utf32 true rest)
    | 0xFF :: 0xFE :: 0 :: 0 :: rest => .ok (Files.utf32 false rest)
    | _ :: _ :: _ :: _ :: _ => .error "UTF-32 stream does not start with BOM"
    | _ => .ok (Files.utf32 false bytes)
  | utf32le => .ok (Files.utf32 false bytes)
  | utf32be => .ok (Files.utf32 true bytes)

/-- What an encoding is called. -/
def title : Encoding → String
  | utf8 => "utf_8"
  | utf8Marked => "utf_8_sig"
  | ascii => "ascii"
  | latin1 => "latin_1"
  | latin9 => "iso8859_15"
  | western => "cp1252"
  | utf16 => "utf_16"
  | utf16le => "utf_16_le"
  | utf16be => "utf_16_be"
  | utf32 => "utf_32"
  | utf32le => "utf_32_le"
  | utf32be => "utf_32_be"

/-- What it is called besides. -/
def aliases : Encoding → List String
  | utf8 => ["u8", "utf", "utf8", "utf8_ucs2", "utf8_ucs4", "cp65001"]
  | utf8Marked => []
  | ascii => ["646", "ansi_x3.4_1968", "ansi_x3_4_1968", "ansi_x3.4_1986", "cp367", "csascii", "ibm367",
      "iso646_us", "iso_646.irv_1991", "iso_ir_6", "us", "us_ascii"]
  | latin1 => ["8859", "cp819", "csisolatin1", "ibm819", "iso8859", "iso8859_1", "iso_8859_1",
      "iso_8859_1_1987", "iso_ir_100", "l1", "latin", "latin1"]
  | latin9 => ["iso_8859_15", "l9", "latin9"]
  | western => ["1252", "windows_1252"]
  | utf16 => ["u16", "utf16"]
  | utf16le => ["unicodelittleunmarked", "utf_16le"]
  | utf16be => ["unicodebigunmarked", "utf_16be"]
  | utf32 => ["u32", "utf32"]
  | utf32le => ["utf_32le"]
  | utf32be => ["utf_32be"]

def all : List Encoding :=
  [utf8, utf8Marked, ascii, latin1, latin9, western, utf16, utf16le, utf16be, utf32, utf32le, utf32be]

def isNamed (c : Char) : Bool := c.isAlphanum || c == '.'

/-- Small letters, digits and points, with an underscore for what stands between them. -/
def plainChars (gap : Bool) : List Char → List Char
  | [] => []
  | c :: cs =>
    if isNamed c then (if gap then ['_'] else []) ++ c.toLower :: plainChars false cs
    else plainChars true cs

def plainName (name : String) : String :=
  String.ofList (plainChars false (name.toList.dropWhile fun c => !isNamed c))

/-- An encoding by its name. In another name than its title, points may stand for underscores. -/
def ofName? (name : String) : Option Encoding :=
  let plain := plainName name
  let pointless := String.ofList (plain.toList.map fun c => if c == '.' then '_' else c)
  all.find? fun e => e.title == plain || e.aliases.contains plain || e.aliases.contains pointless

end Encoding

/-- The encodings that are defined here. There are more in the world. -/
def Codecs.common : Codecs := fun name => (Encoding.ofName? name).map Encoding.decode

/-- Every line end as a line feed: a carriage return counts as one, with or without a line feed. -/
def unixLines : List Char → List Char
  | '\r' :: '\n' :: rest => '\n' :: unixLines rest
  | '\r' :: rest => '\n' :: unixLines rest
  | c :: rest => c :: unixLines rest
  | [] => []

end ClassAtlas.Files
