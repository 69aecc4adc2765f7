/-!
Texts with lone surrogates. A surrogate, one of the code points U+D800 to U+DFFF, is no
character; a high and a low one together spell a character beyond U+FFFF. Where one stands
alone in a text it is written as an escape mark and a stand-in, and the mark itself, which
is no character of any script, is written twice.

- `Text.written`: how a code point is written; `Text.codePoints`: the code points of what
  is written.
- `codePoints_injective`: a list of characters is known by its code points.
- `Text.points`, `Text.ofPoints`: a text as its code points; `points_injective`.
- `Text.atMost`: the order of texts by their code points.
- `Text.ofRaw`, `Text.toRaw`: texts that come from outside and go there.
- `Text.joinPairs`: the text of code units, in which pairs are spelled out; `Text.paired`:
  the same for a text whose surrogates have come to stand side by side.
-/

namespace Telemetry.Text

/-- The last code point. -/
def escapeMark : Char := Char.ofNat 0x10FFFF

def standInShift : Nat := 0x800

def isHighSurrogate (n : Nat) : Bool := 0xD800 ≤ n && n < 0xDC00

def isLowSurrogate (n : Nat) : Bool := 0xDC00 ≤ n && n < 0xE000

def isSurrogate (n : Nat) : Bool := isHighSurrogate n || isLowSurrogate n

/-- How a code point is written. -/
def written (n : Nat) : List Char :=
  if isSurrogate n then [escapeMark, Char.ofNat (n + standInShift)]
  else if n = escapeMark.toNat then [escapeMark, escapeMark]
  else [Char.ofNat n]

/-- What is read for a mark that no stand-in follows. It is past all code points, and no text
from outside has one. -/
def strayMark : Nat := 0x110000

def codePoints : List Char → List Nat
  | [] => []
  | [c] => if c = escapeMark then [strayMark] else [c.toNat]
  | c :: d :: rest =>
    if c = escapeMark then
      if d = escapeMark then d.toNat :: codePoints rest
      else if isSurrogate (d.toNat - standInShift) then
        (d.toNat - standInShift) :: codePoints rest
      else strayMark :: codePoints (d :: rest)
    else c.toNat :: codePoints (d :: rest)

def points (s : String) : List Nat := codePoints s.toList

def ofPoints (ns : List Nat) : String := String.ofList (ns.flatMap written)

/-- Whether a list of code points is another one or comes before it. -/
def pointsAtMost : List Nat → List Nat → Bool
  | [], _ => true
  | _ :: _, [] => false
  | m :: ms, n :: ns => decide (m < n) || (decide (m = n) && pointsAtMost ms ns)

/-- Whether a text is another one or comes before it, by code points. -/
def atMost (s t : String) : Bool := pointsAtMost (points s) (points t)

/-- A text as it comes from outside, where every character stands for itself. -/
def ofRaw (s : String) : String := ofPoints (s.toList.map Char.toNat)

def toRaw (s : String) : String := String.ofList ((points s).map Char.ofNat)

/-- The code point that a high and a low surrogate spell. -/
def ofPair (high low : Nat) : Nat := 0x10000 + (high - 0xD800) * 0x400 + (low - 0xDC00)

/-- The text of a unit that is no part of a pair: a surrogate, or a character of a text. -/
def ofUnit (n : Nat) : List Char := if isSurrogate n then written n else [Char.ofNat n]

/-- The text of units: a high surrogate and the low one after it are one character. -/
def joinPairs : List Nat → List Char
  | [] => []
  | [n] => ofUnit n
  | high :: low :: rest =>
    if isHighSurrogate high && isLowSurrogate low then
      written (ofPair high low) ++ joinPairs rest
    else ofUnit high ++ joinPairs (low :: rest)

/-- Code points, of which a high and a low surrogate that follow each other are one. -/
def pairUp : List Nat → List Nat
  | high :: low :: rest =>
    if isHighSurrogate high && isLowSurrogate low then ofPair high low :: pairUp rest
    else high :: pairUp (low :: rest)
  | ns => ns

def paired (s : String) : String := ofPoints (pairUp (points s))

theorem isSurrogate_iff (n : Nat) : isSurrogate n = true ↔ 0xD800 ≤ n ∧ n < 0xE000 := by
  simp only [isSurrogate, isHighSurrogate, isLowSurrogate, Bool.or_eq_true, Bool.and_eq_true,
    decide_eq_true_eq]
  omega

theorem toNat_lt (c : Char) : c.toNat < 0x110000 := by
  rcases c.valid with h | h
  · exact Nat.lt_trans h (by decide)
  · exact h.2

/-- The characters that are read as a code point or as a stray mark. -/
def spelled (n : Nat) : List Char := if n = strayMark then [escapeMark] else written n

theorem spelled_toNat {c : Char} (h : c ≠ escapeMark) : spelled c.toNat = [c] := by
  have hlt := toNat_lt c
  have hsurrogate : ¬ isSurrogate c.toNat = true := by
    rw [isSurrogate_iff]
    have := c.valid
    unfold UInt32.isValidChar Nat.isValidChar at this
    simp only [Char.toNat]
    omega
  have hmark : c.toNat ≠ escapeMark.toNat := fun he => h (Char.toNat_inj.mp he)
  rw [spelled, if_neg (by unfold strayMark; omega), written, if_neg hsurrogate, if_neg hmark,
    Char.ofNat_toNat]

/-- Every list of characters is spelled by what is read of it. -/
theorem flatMap_spelled_codePoints (cs : List Char) : (codePoints cs).flatMap spelled = cs := by
  fun_induction codePoints cs with
  | case1 => rfl
  | case2 => rfl
  | case3 c h => rw [List.flatMap_singleton, spelled_toNat h]
  | case4 rest ih =>
    rw [List.flatMap_cons, ih]
    rfl
  | case5 d rest _ h ih =>
    have hr := (isSurrogate_iff _).1 h
    have hshift : d.toNat - standInShift + standInShift = d.toNat :=
      Nat.sub_add_cancel (by omega)
    rw [List.flatMap_cons, ih, spelled, if_neg (by unfold strayMark; omega), written, if_pos h,
      hshift, Char.ofNat_toNat]
    rfl
  | case6 d rest _ _ ih =>
    rw [List.flatMap_cons, ih]
    rfl
  | case7 c d rest h ih => rw [List.flatMap_cons, ih, spelled_toNat h, List.singleton_append]

theorem codePoints_injective {cs ds : List Char} (h : codePoints cs = codePoints ds) :
    cs = ds := by
  rw [← flatMap_spelled_codePoints cs, h, flatMap_spelled_codePoints]

/-- A text is known by its code points. -/
theorem points_injective {s t : String} (h : points s = points t) : s = t :=
  String.toList_inj.mp (codePoints_injective h)

example : joinPairs [0xD83D, 0xDE00] = ['😀'] ∧ codePoints (written 0xD83D) = [0xD83D] := by
  decide

end Telemetry.Text
