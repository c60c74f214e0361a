/-! Integer literals: digits in one of three radices, and an `L` behind the long ones. -/
namespace ClassText.Lexeme

inductive Radix where
  | binary | decimal | hexadecimal
deriving DecidableEq, Repr

namespace Radix

def base : Radix → Nat
  | binary => 2
  | decimal => 10
  | hexadecimal => 16

/-- The value of a character as a digit. Hexadecimal digits beyond nine are lower-case letters. -/
def digit? (r : Radix) (c : Char) : Option Nat :=
  match r with
  | binary => if c = '0' then some 0 else if c = '1' then some 1 else none
  | decimal => if c.isDigit then some (c.toNat - '0'.toNat) else none
  | hexadecimal =>
    if c.isDigit then some (c.toNat - '0'.toNat)
    else if 'a' ≤ c ∧ c ≤ 'f' then some (c.toNat - 'a'.toNat + 10)
    else none

/-- Whether a character may stand in the body of a literal. Only decimal literals have separators. -/
def accepts (r : Radix) (c : Char) : Bool := (r.digit? c).isSome || (r = .decimal && c == '_')

/-- The positional value of the digits in a text; separators count for nothing. -/
def value (r : Radix) (cs : List Char) : Nat :=
  (cs.filterMap r.digit?).foldl (fun v d => v * r.base + d) 0

end Radix

/-- The radix that a literal announces, the characters that announce it, and what follows them. -/
def splitRadix : List Char → Radix × List Char × List Char
  | '0' :: 'x' :: cs => (.hexadecimal, ['0', 'x'], cs)
  | '0' :: 'b' :: cs => (.binary, ['0', 'b'], cs)
  | cs => (.decimal, [], cs)

/-- The mark of a long literal, if it is there, and what follows. -/
def splitLong : List Char → Bool × List Char × List Char
  | 'L' :: cs => (true, ['L'], cs)
  | cs => (false, [], cs)

theorem splitRadix_append (cs : List Char) : (splitRadix cs).2.1 ++ (splitRadix cs).2.2 = cs := by
  unfold splitRadix
  split <;> rfl

theorem splitLong_append (cs : List Char) : (splitLong cs).2.1 ++ (splitLong cs).2.2 = cs := by
  unfold splitLong
  split <;> rfl

/-- An integer literal: its value, whether it is long, the characters that spell it, and what follows
them. The announced radix needs no digits. -/
structure IntegerSplit where
  value : Nat
  isLong : Bool
  taken : List Char
  rest : List Char

/-- The integer literal at the head of a text that begins with a digit. -/
def splitInteger (cs : List Char) : IntegerSplit :=
  let (radix, mark, body) := splitRadix cs
  let digits := body.takeWhile radix.accepts
  let (isLong, suffix, rest) := splitLong (body.dropWhile radix.accepts)
  ⟨radix.value digits, isLong, mark ++ digits ++ suffix, rest⟩

/-- A literal and what follows it make up the text. -/
theorem splitInteger_append (cs : List Char) :
    (splitInteger cs).taken ++ (splitInteger cs).rest = cs := by
  have hl := splitLong_append ((splitRadix cs).2.2.dropWhile (splitRadix cs).1.accepts)
  have hd := List.takeWhile_append_dropWhile (p := (splitRadix cs).1.accepts) (l := (splitRadix cs).2.2)
  have hr := splitRadix_append cs
  simp only [splitInteger, List.append_assoc, hl, hd, hr]

end ClassText.Lexeme
