import ClassText.Token.Keyword

/-! The reserved words that modify a declaration, and those that name a primitive type. -/
namespace ClassText

inductive Modifier where
  | «public» | «private» | «protected» | final | «abstract» | volatile | synchronized | strictfp
  | transient | static | native
deriving DecidableEq, Repr

namespace Modifier

def all : List Modifier := [
  .«public», .«private», .«protected», .final, .«abstract», .volatile, .synchronized, .strictfp,
  .transient, .static, .native]

def keyword : Modifier → Keyword
  | .«public» => .«public» | .«private» => .«private» | .«protected» => .«protected»
  | .final => .final | .«abstract» => .«abstract» | .volatile => .volatile
  | .synchronized => .synchronized | .strictfp => .strictfp | .transient => .transient
  | .static => .static | .native => .native

def spelling (m : Modifier) : String := m.keyword.spelling

def label (m : Modifier) : String := m.keyword.label

def ofKeyword? (k : Keyword) : Option Modifier := all.find? (·.keyword = k)

theorem ofKeyword?_keyword (m : Modifier) : ofKeyword? m.keyword = some m := by cases m <;> rfl

theorem keyword_of_ofKeyword? {k : Keyword} {m : Modifier} (h : ofKeyword? k = some m) :
    m.keyword = k := by
  simpa using List.find?_some h

theorem keyword_injective {m n : Modifier} (h : m.keyword = n.keyword) : m = n :=
  Option.some.inj (by rw [← ofKeyword?_keyword m, h, ofKeyword?_keyword])

end Modifier

/-- The types that a reserved word names by itself. -/
inductive Primitive where
  | void | byte | char | short | int | float | long | double
deriving DecidableEq, Repr

namespace Primitive

def all : List Primitive := [.void, .byte, .char, .short, .int, .float, .long, .double]

def keyword : Primitive → Keyword
  | .void => .void | .byte => .byte | .char => .char | .short => .short
  | .int => .int | .float => .float | .long => .long | .double => .double

def spelling (p : Primitive) : String := p.keyword.spelling

def label (p : Primitive) : String := p.keyword.label

def ofKeyword? (k : Keyword) : Option Primitive := all.find? (·.keyword = k)

theorem ofKeyword?_keyword (p : Primitive) : ofKeyword? p.keyword = some p := by cases p <;> rfl

theorem keyword_of_ofKeyword? {k : Keyword} {p : Primitive} (h : ofKeyword? k = some p) :
    p.keyword = k := by
  simpa using List.find?_some h

theorem keyword_injective {p q : Primitive} (h : p.keyword = q.keyword) : p = q :=
  Option.some.inj (by rw [← ofKeyword?_keyword p, h, ofKeyword?_keyword])

end Primitive
end ClassText
