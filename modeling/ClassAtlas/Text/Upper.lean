/-! The upper case of texts of all scripts. Most characters have one character for an upper case, at the same
distance throughout a range; alphabets that alternate upper and lower case take every other code point. A
few ligatures and letters with marks have several characters for theirs. -/

namespace ClassAtlas.Text

/-- Characters beyond the ASCII range with another upper case, as first, last and step, and how far away it
is. -/
def upperDistances : List (Nat × Nat × Nat × Int) := [
  (0xB5, 0xB5, 1, 0x2E7), (0xE0, 0xF6, 1, -0x20), (0xF8, 0xFE, 1, -0x20), (0xFF, 0xFF, 1, 0x79),
  (0x101, 0x12F, 2, -0x1), (0x131, 0x131, 1, -0xE8), (0x133, 0x137, 2, -0x1), (0x13A, 0x148, 2, -0x1),
  (0x14B, 0x177, 2, -0x1), (0x17A, 0x17E, 2, -0x1), (0x17F, 0x17F, 1, -0x12C), (0x180, 0x180, 1, 0xC3),
  (0x183, 0x185, 2, -0x1), (0x188, 0x188, 1, -0x1), (0x18C, 0x18C, 1, -0x1), (0x192, 0x192, 1, -0x1),
  (0x195, 0x195, 1, 0x61), (0x199, 0x199, 1, -0x1), (0x19A, 0x19A, 1, 0xA3), (0x19E, 0x19E, 1, 0x82),
  (0x1A1, 0x1A5, 2, -0x1), (0x1A8, 0x1A8, 1, -0x1), (0x1AD, 0x1AD, 1, -0x1), (0x1B0, 0x1B0, 1, -0x1),
  (0x1B4, 0x1B6, 2, -0x1), (0x1B9, 0x1B9, 1, -0x1), (0x1BD, 0x1BD, 1, -0x1), (0x1BF, 0x1BF, 1, 0x38),
  (0x1C5, 0x1C5, 1, -0x1), (0x1C6, 0x1C6, 1, -0x2), (0x1C8, 0x1C8, 1, -0x1), (0x1C9, 0x1C9, 1, -0x2),
  (0x1CB, 0x1CB, 1, -0x1), (0x1CC, 0x1CC, 1, -0x2), (0x1CE, 0x1DC, 2, -0x1), (0x1DD, 0x1DD, 1, -0x4F),
  (0x1DF, 0x1EF, 2, -0x1), (0x1F2, 0x1F2, 1, -0x1), (0x1F3, 0x1F3, 1, -0x2), (0x1F5, 0x1F5, 1, -0x1),
  (0x1F9, 0x21F, 2, -0x1), (0x223, 0x233, 2, -0x1), (0x23C, 0x23C, 1, -0x1), (0x23F, 0x240, 1, 0x2A3F),
  (0x242, 0x242, 1, -0x1), (0x247, 0x24F, 2, -0x1), (0x250, 0x250, 1, 0x2A1F), (0x251, 0x251, 1, 0x2A1C),
  (0x252, 0x252, 1, 0x2A1E), (0x253, 0x253, 1, -0xD2), (0x254, 0x254, 1, -0xCE), (0x256, 0x257, 1, -0xCD),
  (0x259, 0x259, 1, -0xCA), (0x25B, 0x25B, 1, -0xCB), (0x25C, 0x25C, 1, 0xA54F), (0x260, 0x260, 1, -0xCD),
  (0x261, 0x261, 1, 0xA54B), (0x263, 0x263, 1, -0xCF), (0x265, 0x265, 1, 0xA528), (0x266, 0x266, 1, 0xA544),
  (0x268, 0x268, 1, -0xD1), (0x269, 0x269, 1, -0xD3), (0x26A, 0x26A, 1, 0xA544), (0x26B, 0x26B, 1, 0x29F7),
  (0x26C, 0x26C, 1, 0xA541), (0x26F, 0x26F, 1, -0xD3), (0x271, 0x271, 1, 0x29FD), (0x272, 0x272, 1, -0xD5),
  (0x275, 0x275, 1, -0xD6), (0x27D, 0x27D, 1, 0x29E7), (0x280, 0x280, 1, -0xDA), (0x282, 0x282, 1, 0xA543),
  (0x283, 0x283, 1, -0xDA), (0x287, 0x287, 1, 0xA52A), (0x288, 0x288, 1, -0xDA), (0x289, 0x289, 1, -0x45),
  (0x28A, 0x28B, 1, -0xD9), (0x28C, 0x28C, 1, -0x47), (0x292, 0x292, 1, -0xDB), (0x29D, 0x29D, 1, 0xA515),
  (0x29E, 0x29E, 1, 0xA512), (0x345, 0x345, 1, 0x54), (0x371, 0x373, 2, -0x1), (0x377, 0x377, 1, -0x1),
  (0x37B, 0x37D, 1, 0x82), (0x3AC, 0x3AC, 1, -0x26), (0x3AD, 0x3AF, 1, -0x25), (0x3B1, 0x3C1, 1, -0x20),
  (0x3C2, 0x3C2, 1, -0x1F), (0x3C3, 0x3CB, 1, -0x20), (0x3CC, 0x3CC, 1, -0x40), (0x3CD, 0x3CE, 1, -0x3F),
  (0x3D0, 0x3D0, 1, -0x3E), (0x3D1, 0x3D1, 1, -0x39), (0x3D5, 0x3D5, 1, -0x2F), (0x3D6, 0x3D6, 1, -0x36),
  (0x3D7, 0x3D7, 1, -0x8), (0x3D9, 0x3EF, 2, -0x1), (0x3F0, 0x3F0, 1, -0x56), (0x3F1, 0x3F1, 1, -0x50),
  (0x3F2, 0x3F2, 1, 0x7), (0x3F3, 0x3F3, 1, -0x74), (0x3F5, 0x3F5, 1, -0x60), (0x3F8, 0x3F8, 1, -0x1),
  (0x3FB, 0x3FB, 1, -0x1), (0x430, 0x44F, 1, -0x20), (0x450, 0x45F, 1, -0x50), (0x461, 0x481, 2, -0x1),
  (0x48B, 0x4BF, 2, -0x1), (0x4C2, 0x4CE, 2, -0x1), (0x4CF, 0x4CF, 1, -0xF), (0x4D1, 0x52F, 2, -0x1),
  (0x561, 0x586, 1, -0x30), (0x10D0, 0x10FA, 1, 0xBC0), (0x10FD, 0x10FF, 1, 0xBC0), (0x13F8, 0x13FD, 1, -0x8),
  (0x1C80, 0x1C80, 1, -0x186E), (0x1C81, 0x1C81, 1, -0x186D), (0x1C82, 0x1C82, 1, -0x1864),
  (0x1C83, 0x1C84, 1, -0x1862), (0x1C85, 0x1C85, 1, -0x1863), (0x1C86, 0x1C86, 1, -0x185C),
  (0x1C87, 0x1C87, 1, -0x1825), (0x1C88, 0x1C88, 1, 0x89C2), (0x1D79, 0x1D79, 1, 0x8A04),
  (0x1D7D, 0x1D7D, 1, 0xEE6), (0x1D8E, 0x1D8E, 1, 0x8A38), (0x1E01, 0x1E95, 2, -0x1),
  (0x1E9B, 0x1E9B, 1, -0x3B), (0x1EA1, 0x1EFF, 2, -0x1), (0x1F00, 0x1F07, 1, 0x8), (0x1F10, 0x1F15, 1, 0x8),
  (0x1F20, 0x1F27, 1, 0x8), (0x1F30, 0x1F37, 1, 0x8), (0x1F40, 0x1F45, 1, 0x8), (0x1F51, 0x1F57, 2, 0x8),
  (0x1F60, 0x1F67, 1, 0x8), (0x1F70, 0x1F71, 1, 0x4A), (0x1F72, 0x1F75, 1, 0x56), (0x1F76, 0x1F77, 1, 0x64),
  (0x1F78, 0x1F79, 1, 0x80), (0x1F7A, 0x1F7B, 1, 0x70), (0x1F7C, 0x1F7D, 1, 0x7E), (0x1FB0, 0x1FB1, 1, 0x8),
  (0x1FBE, 0x1FBE, 1, -0x1C25), (0x1FD0, 0x1FD1, 1, 0x8), (0x1FE0, 0x1FE1, 1, 0x8), (0x1FE5, 0x1FE5, 1, 0x7),
  (0x214E, 0x214E, 1, -0x1C), (0x2170, 0x217F, 1, -0x10), (0x2184, 0x2184, 1, -0x1), (0x24D0, 0x24E9, 1, -0x1A),
  (0x2C30, 0x2C5F, 1, -0x30), (0x2C61, 0x2C61, 1, -0x1), (0x2C65, 0x2C65, 1, -0x2A2B),
  (0x2C66, 0x2C66, 1, -0x2A28), (0x2C68, 0x2C6C, 2, -0x1), (0x2C73, 0x2C73, 1, -0x1), (0x2C76, 0x2C76, 1, -0x1),
  (0x2C81, 0x2CE3, 2, -0x1), (0x2CEC, 0x2CEE, 2, -0x1), (0x2CF3, 0x2CF3, 1, -0x1), (0x2D00, 0x2D25, 1, -0x1C60),
  (0x2D27, 0x2D27, 1, -0x1C60), (0x2D2D, 0x2D2D, 1, -0x1C60), (0xA641, 0xA66D, 2, -0x1),
  (0xA681, 0xA69B, 2, -0x1), (0xA723, 0xA72F, 2, -0x1), (0xA733, 0xA76F, 2, -0x1), (0xA77A, 0xA77C, 2, -0x1),
  (0xA77F, 0xA787, 2, -0x1), (0xA78C, 0xA78C, 1, -0x1), (0xA791, 0xA793, 2, -0x1), (0xA794, 0xA794, 1, 0x30),
  (0xA797, 0xA7A9, 2, -0x1), (0xA7B5, 0xA7C3, 2, -0x1), (0xA7C8, 0xA7CA, 2, -0x1), (0xA7D1, 0xA7D1, 1, -0x1),
  (0xA7D7, 0xA7D9, 2, -0x1), (0xA7F6, 0xA7F6, 1, -0x1), (0xAB53, 0xAB53, 1, -0x3A0),
  (0xAB70, 0xABBF, 1, -0x97D0), (0xFF41, 0xFF5A, 1, -0x20), (0x10428, 0x1044F, 1, -0x28),
  (0x104D8, 0x104FB, 1, -0x28), (0x10597, 0x105A1, 1, -0x27), (0x105A3, 0x105B1, 1, -0x27),
  (0x105B3, 0x105B9, 1, -0x27), (0x105BB, 0x105BC, 1, -0x27), (0x10CC0, 0x10CF2, 1, -0x40),
  (0x118C0, 0x118DF, 1, -0x20), (0x16E60, 0x16E7F, 1, -0x20), (0x1E922, 0x1E943, 1, -0x22)]

/-- Characters whose upper case is longer, as first and last, how far away its first character is, and the
characters that follow that one. -/
def longUppers : List (Nat × Nat × Int × List Nat) := [
  (0xDF, 0xDF, -0x8C, [0x53]), (0x149, 0x149, 0x173, [0x4E]), (0x1F0, 0x1F0, -0x1A6, [0x30C]),
  (0x390, 0x390, 0x9, [0x308, 0x301]), (0x3B0, 0x3B0, -0xB, [0x308, 0x301]), (0x587, 0x587, -0x52, [0x552]),
  (0x1E96, 0x1E96, -0x1E4E, [0x331]), (0x1E97, 0x1E97, -0x1E43, [0x308]), (0x1E98, 0x1E98, -0x1E41, [0x30A]),
  (0x1E99, 0x1E99, -0x1E40, [0x30A]), (0x1E9A, 0x1E9A, -0x1E59, [0x2BE]), (0x1F50, 0x1F50, -0x1BAB, [0x313]),
  (0x1F52, 0x1F52, -0x1BAD, [0x313, 0x300]), (0x1F54, 0x1F54, -0x1BAF, [0x313, 0x301]),
  (0x1F56, 0x1F56, -0x1BB1, [0x313, 0x342]), (0x1F80, 0x1F87, -0x78, [0x399]), (0x1F88, 0x1F8F, -0x80, [0x399]),
  (0x1F90, 0x1F97, -0x68, [0x399]), (0x1F98, 0x1F9F, -0x70, [0x399]), (0x1FA0, 0x1FA7, -0x38, [0x399]),
  (0x1FA8, 0x1FAF, -0x40, [0x399]), (0x1FB2, 0x1FB2, 0x8, [0x399]), (0x1FB3, 0x1FB3, -0x1C22, [0x399]),
  (0x1FB4, 0x1FB4, -0x1C2E, [0x399]), (0x1FB6, 0x1FB6, -0x1C25, [0x342]),
  (0x1FB7, 0x1FB7, -0x1C26, [0x342, 0x399]), (0x1FBC, 0x1FBC, -0x1C2B, [0x399]), (0x1FC2, 0x1FC2, 0x8, [0x399]),
  (0x1FC3, 0x1FC3, -0x1C2C, [0x399]), (0x1FC4, 0x1FC4, -0x1C3B, [0x399]), (0x1FC6, 0x1FC6, -0x1C2F, [0x342]),
  (0x1FC7, 0x1FC7, -0x1C30, [0x342, 0x399]), (0x1FCC, 0x1FCC, -0x1C35, [0x399]),
  (0x1FD2, 0x1FD2, -0x1C39, [0x308, 0x300]), (0x1FD3, 0x1FD3, -0x1C3A, [0x308, 0x301]),
  (0x1FD6, 0x1FD6, -0x1C3D, [0x342]), (0x1FD7, 0x1FD7, -0x1C3E, [0x308, 0x342]),
  (0x1FE2, 0x1FE2, -0x1C3D, [0x308, 0x300]), (0x1FE3, 0x1FE3, -0x1C3E, [0x308, 0x301]),
  (0x1FE4, 0x1FE4, -0x1C43, [0x313]), (0x1FE6, 0x1FE6, -0x1C41, [0x342]),
  (0x1FE7, 0x1FE7, -0x1C42, [0x308, 0x342]), (0x1FF2, 0x1FF2, 0x8, [0x399]), (0x1FF3, 0x1FF3, -0x1C4A, [0x399]),
  (0x1FF4, 0x1FF4, -0x1C65, [0x399]), (0x1FF6, 0x1FF6, -0x1C4D, [0x342]),
  (0x1FF7, 0x1FF7, -0x1C4E, [0x342, 0x399]), (0x1FFC, 0x1FFC, -0x1C53, [0x399]),
  (0xFB00, 0xFB00, -0xFABA, [0x46]), (0xFB01, 0xFB01, -0xFABB, [0x49]), (0xFB02, 0xFB02, -0xFABC, [0x4C]),
  (0xFB03, 0xFB03, -0xFABD, [0x46, 0x49]), (0xFB04, 0xFB04, -0xFABE, [0x46, 0x4C]),
  (0xFB05, 0xFB05, -0xFAB2, [0x54]), (0xFB06, 0xFB06, -0xFAB3, [0x54]), (0xFB13, 0xFB13, -0xF5CF, [0x546]),
  (0xFB14, 0xFB14, -0xF5D0, [0x535]), (0xFB15, 0xFB15, -0xF5D1, [0x53B]), (0xFB16, 0xFB16, -0xF5C8, [0x546]),
  (0xFB17, 0xFB17, -0xF5D3, [0x53D])]

/-- The character that stands at a distance from another. -/
def charAt (c : Char) (distance : Int) : Char := Char.ofNat (c.toNat + distance).toNat

/-- The upper case of a character; one that has no case stays as it is. -/
def upperChars (c : Char) : List Char :=
  if c.toNat < 128 then [c.toUpper]
  else
    match longUppers.find? fun (first, last, _) => first ≤ c.toNat && c.toNat ≤ last with
    | some (_, _, distance, more) => charAt c distance :: more.map Char.ofNat
    | none =>
      match upperDistances.find? fun (first, last, step, _) =>
        first ≤ c.toNat && c.toNat ≤ last && (c.toNat - first) % step == 0 with
      | some (_, _, _, distance) => [charAt c distance]
      | none => [c]

def upper (s : String) : String := String.ofList (s.toList.flatMap upperChars)

example : upper "größer" = "GRÖSSER" := by decide +kernel

end ClassAtlas.Text
