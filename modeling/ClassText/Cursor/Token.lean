import ClassText.Fault
import ClassText.Token.Basic

/-! A forward cursor over tokens. It holds what lies behind it, last token first, and what lies ahead,
so that the two together are always the whole input. -/
namespace ClassText

structure TokenCursor where
  behind : List Located
  ahead : List Located
deriving DecidableEq

namespace TokenCursor

def ofTokens (tokens : List Located) : TokenCursor := ⟨[], tokens⟩

/-- The whole input, first token first, as it stands after all splits. -/
def input (c : TokenCursor) : List Located := c.behind.reverse ++ c.ahead

@[simp] theorem input_ofTokens (tokens : List Located) : (ofTokens tokens).input = tokens := by
  simp [input, ofTokens]

/-- The located token `n` places ahead, if there is one. -/
def get? (c : TokenCursor) (n : Nat) : Option Located := c.ahead[n]?

/-- The token `n` places ahead, if there is one. -/
def peek? (c : TokenCursor) (n : Nat) : Option Token := (c.get? n).map (·.token)

def currentAt (c : TokenCursor) (n : Nat) : Except Fault Token :=
  match c.peek? n with
  | some t => .ok t
  | none => .error .outOfBounds

def current (c : TokenCursor) : Except Fault Token := c.currentAt 0

/-- Whether at least `n` tokens are left. It makes no sense to ask this of zero. -/
def hasNextAt (c : TokenCursor) (n : Nat) : Except Fault Bool :=
  if n = 0 then .error .zeroLookahead else .ok (decide (n ≤ c.ahead.length))

def hasNext (c : TokenCursor) : Bool := !c.ahead.isEmpty

/-- Move over one token. At the end of the input there is no token to move over. -/
def advance (c : TokenCursor) : TokenCursor :=
  match c.ahead with
  | [] => c
  | l :: rest => ⟨l :: c.behind, rest⟩

@[simp] theorem input_advance (c : TokenCursor) : c.advance.input = c.input := by
  unfold advance
  split <;> simp_all [input]

/-- Put `rest` in the place of the current token, of which the first character has been used up. -/
def splitCurrent (c : TokenCursor) (rest : Token) : Except Fault TokenCursor :=
  match c.ahead with
  | [] => .error .outOfBounds
  | l :: more => .ok ⟨c.behind, l.splitTo rest :: more⟩

/-- The last tokens that were moved over, at most `n`, in the order of the text. -/
def consumed (c : TokenCursor) (n : Nat) : List Token := ((c.behind.take n).map (·.token)).reverse

/-- Where the last token that was moved over ends; zero if there is none. -/
def consumedEnd (c : TokenCursor) : Nat := (c.behind.head?.map (·.span.stop)).getD 0

/-- Where the last token of the whole input ends; zero if there is none. -/
def inputEnd (c : TokenCursor) : Nat :=
  match c.ahead.getLast? with
  | some l => l.span.stop
  | none => c.consumedEnd

/-- The empty stretch at the end of the input. -/
def endSpan (c : TokenCursor) : Span := ⟨c.inputEnd, c.inputEnd⟩

end TokenCursor
end ClassText
