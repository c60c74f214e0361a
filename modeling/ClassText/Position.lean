/-! Places in a text: line and column count characters from one, offsets count UTF-8 bytes from zero. -/
namespace ClassText

structure Position where
  line : Nat
  column : Nat
  offset : Nat
deriving DecidableEq, Repr

/-- A stretch of a text in bytes, from `start` up to and not including `stop`. -/
structure Span where
  start : Nat
  stop : Nat
deriving DecidableEq, Repr

namespace Position

/-- Where every text begins. -/
def origin : Position := ⟨1, 1, 0⟩

/-- One character further on. Only a newline begins a new line. -/
def advance (p : Position) (c : Char) : Position :=
  if c = '\n' then ⟨p.line + 1, 1, p.offset + c.utf8Size⟩
  else ⟨p.line, p.column + 1, p.offset + c.utf8Size⟩

/-- The place reached from `p` by passing over a text. -/
def after (p : Position) (cs : List Char) : Position := cs.foldl advance p

/-- The stretch from `p` over a text. -/
def spanOver (p : Position) (cs : List Char) : Span := ⟨p.offset, (p.after cs).offset⟩

def text (p : Position) : String := toString p.line ++ ":" ++ toString p.column

@[simp] theorem offset_advance (p : Position) (c : Char) :
    (p.advance c).offset = p.offset + c.utf8Size := by
  unfold advance
  split <;> rfl

@[simp] theorem after_nil (p : Position) : p.after [] = p := rfl

@[simp] theorem after_cons (p : Position) (c : Char) (cs : List Char) :
    p.after (c :: cs) = (p.advance c).after cs := rfl

@[simp] theorem after_append (p : Position) (cs ds : List Char) :
    p.after (cs ++ ds) = (p.after cs).after ds := List.foldl_append

end Position
end ClassText
