import EntityFeed.Url.Domain.Mark

/-! Directions of writing in domains, as of Unicode 17. In a domain that has letters written from
right to left no label may mix the directions. The sets are about characters that a domain may have.
-/
namespace EntityFeed.Url.Domain

open EntityFeed.Text (CodePoints)

/-- Letters written from right to left. -/
def rightToLeft : CodePoints := .ofText "
5BE-5F4 608 60B 60D 61B-64A 66D-6D5 6E5-6E6 6EE-6EF 6FA-7F5 7FA-8C9 FBB2-FBC2 FE73 10800-1091B
10920-10B35 10B40-10D23 10D4A-10D4F 10D6F-10D8F 10E80-10EC7 10F00-10FF6 1E800-1ED3D"

/-- Digits whose numbers stand between letters written from right to left. -/
def arabicDigits : CodePoints := .ofText "660-669 66B-66C 10D30-10D49 10E60-10E7E"

/-- Digits whose numbers stand between letters of either direction. -/
def europeanDigits : CodePoints := .ofText "30-39 6F0-6F9 102E1-102FB"

/-- Characters that have no direction of their own. -/
def undirected : CodePoints := .ofText "
0-8 E-1B 21-2F 3A-60 7B-D7 F7 2B9-2BA 2C2-2CF 2D2-2ED 2EF-2FF 375 3F6 58A-58F 606-607 609-60A 60C
60E-60F 66A 6DE 6E9 7F6-7F9 9F2-9F3 9FB AF1 BF3-BFA C78-C7E E3F F3A-F3D 1390-1399 1400 169B-169C
17DB 17F0-180A 1940-1945 19DE-19FF 200C-214D 218A-2335 237B-2394 2396-26AB 26AD-27FF 2900-2BFF
2CE5-2CEA 2CF9-2CFF 2E00-3004 3008-3020 3030 3037 303D-303F 30A0 30FB 31C0-31E5 4DC0-4DFF
A490-A4C6 A60D-A60F A673-A67F A700-A721 A788 A828-A82B A838-A839 A874-A877 AB6A-AB6B FBC3-FE46
10101 10140-1018C 10190-101A0 1091F 10B39-10B3F 10D6E 10ED0-10ED8 11052-11065 11660-1166C
11FD5-11FF1 16FE2 1CC00-1CEF0 1D1E9-1D245 1D300-1D356 1E2FF 1EEF0-1F12F 1F16D-1F16F 1F1AD
1F260-1FBFA"

inductive Direction where
  | leftToRight
  | rightToLeft
  | arabicDigit
  | europeanDigit
  | undirected
  /-- A mark has the direction of what is before it. -/
  | mark
  deriving DecidableEq, Repr

/-- Marks without room of their own that are written from left to right nevertheless. -/
def directedMarks : CodePoints := .ofText "CBF CC6 11A07-11A08 11C3F"

/-- Marks with room of their own that have no direction nevertheless. -/
def undirectedMarks : CodePoints := .ofText "1171E"

def direction (c : Char) : Direction :=
  if c.isLower then .leftToRight
  else if undirectedMarks.has c || (nonspacingMarks.has c && !directedMarks.has c) then .mark
  else if rightToLeft.has c then .rightToLeft
  else if arabicDigits.has c then .arabicDigit
  else if europeanDigits.has c then .europeanDigit
  else if undirected.has c then .undirected
  else .leftToRight

/-- Whether a domain has to keep the directions apart. -/
def isBidirectional (cs : List Char) : Bool :=
  cs.any fun c => direction c matches .rightToLeft | .arabicDigit

/-- The directions of a label without the marks at its end, backwards. -/
def directionsFromEnd (label : List Char) : List Direction :=
  (label.map direction).reverse.dropWhile (· == .mark)

/-- Whether a label keeps the directions apart: it has that of its first character, which is a
letter, and ends with a letter or digit. One from right to left has digits of one kind only. -/
def keepsDirection (label : List Char) : Bool :=
  let all := label.map direction
  let last := (directionsFromEnd label).head?
  match all with
  | [] => true
  | .leftToRight :: _ =>
    all.all (fun d => d != .rightToLeft && d != .arabicDigit) &&
      (last == some .leftToRight || last == some .europeanDigit)
  | .rightToLeft :: _ =>
    !all.contains .leftToRight && !(all.contains .europeanDigit && all.contains .arabicDigit) &&
      (last matches some .rightToLeft | some .europeanDigit | some .arabicDigit)
  | _ => false

end EntityFeed.Url.Domain
