/-! Separators and operators. -/
namespace ClassText

inductive Symbol where
  | leftBrace | rightBrace | leftBracket | rightBracket | leftParen | rightParen
  | dot | comma | colon | semicolon | tilde | not | question | at
  | lt | ltEq | shl | shlAssign | gt | gtEq | shr | shrAssign | uShr | uShrAssign
  | plus | plusPlus | plusAssign | minus | minusMinus | minusAssign | arrow
  | star | starAssign | slash | slashAssign | percent | percentAssign
  | caret | caretAssign | pipe | orOr | pipeAssign | ampersand | andAnd | ampersandAssign
  | assign | eqEq
deriving DecidableEq, Repr

namespace Symbol

/-- Every symbol, separators first, then comparisons and shifts, arithmetic, bits and logic, and
assignment. -/
def all : List Symbol := [
  .leftBrace, .rightBrace, .leftBracket, .rightBracket, .leftParen, .rightParen,
  .dot, .comma, .colon, .semicolon, .tilde, .not, .question, .at,
  .lt, .ltEq, .shl, .shlAssign, .gt, .gtEq, .shr, .shrAssign, .uShr, .uShrAssign,
  .plus, .plusPlus, .plusAssign, .minus, .minusMinus, .minusAssign, .arrow,
  .star, .starAssign, .slash, .slashAssign, .percent, .percentAssign,
  .caret, .caretAssign, .pipe, .orOr, .pipeAssign, .ampersand, .andAnd, .ampersandAssign,
  .assign, .eqEq]

def spelling : Symbol → String
  | .leftBrace => "\x7b" | .rightBrace => "\x7d" | .leftBracket => "[" | .rightBracket => "]"
  | .leftParen => "(" | .rightParen => ")" | .dot => "." | .comma => "," | .colon => ":"
  | .semicolon => ";" | .tilde => "~" | .not => "!" | .question => "?" | .at => "@"
  | .lt => "<" | .ltEq => "<=" | .shl => "<<" | .shlAssign => "<<="
  | .gt => ">" | .gtEq => ">=" | .shr => ">>" | .shrAssign => ">>="
  | .uShr => ">>>" | .uShrAssign => ">>>="
  | .plus => "+" | .plusPlus => "++" | .plusAssign => "+="
  | .minus => "-" | .minusMinus => "--" | .minusAssign => "-=" | .arrow => "->"
  | .star => "*" | .starAssign => "*=" | .slash => "/" | .slashAssign => "/="
  | .percent => "%" | .percentAssign => "%="
  | .caret => "^" | .caretAssign => "^=" | .pipe => "|" | .orOr => "||" | .pipeAssign => "|="
  | .ampersand => "&" | .andAnd => "&&" | .ampersandAssign => "&="
  | .assign => "=" | .eqEq => "=="

/-- The name by which logs refer to the symbol. -/
def label : Symbol → String
  | .leftBrace => "LeftBrace" | .rightBrace => "RightBrace"
  | .leftBracket => "LeftBracket" | .rightBracket => "RightBracket"
  | .leftParen => "LeftParen" | .rightParen => "RightParen"
  | .dot => "Dot" | .comma => "Comma" | .colon => "Colon" | .semicolon => "Semicolon"
  | .tilde => "Tilde" | .not => "Not" | .question => "Question" | .at => "At"
  | .lt => "Lt" | .ltEq => "LtEq" | .shl => "Shl" | .shlAssign => "ShlAssign"
  | .gt => "Gt" | .gtEq => "GtEq" | .shr => "Shr" | .shrAssign => "ShrAssign"
  | .uShr => "UShr" | .uShrAssign => "UShrAssign"
  | .plus => "Plus" | .plusPlus => "PlusPlus" | .plusAssign => "PlusAssign"
  | .minus => "Minus" | .minusMinus => "MinusMinus" | .minusAssign => "MinusAssign"
  | .arrow => "Arrow" | .star => "Star" | .starAssign => "StarAssign"
  | .slash => "Slash" | .slashAssign => "SlashAssign"
  | .percent => "Percent" | .percentAssign => "PercentAssign"
  | .caret => "Caret" | .caretAssign => "CaretAssign"
  | .pipe => "Pipe" | .orOr => "OrOr" | .pipeAssign => "PipeAssign"
  | .ampersand => "Ampersand" | .andAnd => "AndAnd" | .ampersandAssign => "AmpersandAssign"
  | .assign => "Assign" | .eqEq => "EqEq"

def ofSpelling? (s : String) : Option Symbol := all.find? (·.spelling == s)

/-- The symbol with the longest spelling that begins the text. No spelling has more than four
characters. -/
def longestAt? (cs : List Char) : Option Symbol :=
  [4, 3, 2, 1].findSome? fun n => ofSpelling? (String.ofList (cs.take n))

/-- What is left of a compound symbol once its leading `>` has closed a list of type arguments. -/
def afterAngle? : Symbol → Option Symbol
  | .shr => some .gt
  | .uShr => some .shr
  | .gtEq => some .assign
  | .shrAssign => some .gtEq
  | .uShrAssign => some .shrAssign
  | _ => none

/-- The symbols as which a compound with a leading `>` is read when that `>` closes a list of type
arguments, one for each of its characters. Any other symbol stays whole. -/
def parts : Symbol → List Symbol
  | .shr => [.gt, .gt]
  | .uShr => [.gt, .gt, .gt]
  | .gtEq => [.gt, .assign]
  | .shrAssign => [.gt, .gt, .assign]
  | .uShrAssign => [.gt, .gt, .gt, .assign]
  | s => [s]

theorem parts_of_afterAngle? {s left : Symbol} (h : s.afterAngle? = some left) :
    s.parts = .gt :: left.parts := by
  cases s <;> simp_all [afterAngle?] <;> subst h <;> rfl

theorem parts_of_afterAngle?_none {s : Symbol} (h : s.afterAngle? = none) : s.parts = [s] := by
  cases s <;> first | rfl | simp [afterAngle?] at h

/-- A compound symbol is spelled with a `>` before what is left without it. -/
theorem spelling_of_afterAngle? {s left : Symbol} (h : s.afterAngle? = some left) :
    s.spelling.toList = '>' :: left.spelling.toList := by
  cases s <;> cases h <;> simp [spelling]

theorem mem_all (s : Symbol) : s ∈ all := by cases s <;> decide

@[simp] theorem ofSpelling?_spelling (s : Symbol) : ofSpelling? s.spelling = some s := by
  have h : ∀ s ∈ all, ofSpelling? s.spelling = some s := by decide +kernel
  exact h s s.mem_all

theorem spelling_of_ofSpelling? {w : String} {s : Symbol} (h : ofSpelling? w = some s) :
    s.spelling = w := by simpa using List.find?_some h

/-- A symbol is found only where its spelling stands. -/
theorem spelling_prefix_of_longestAt? {cs : List Char} {s : Symbol} (h : longestAt? cs = some s) :
    s.spelling.toList <+: cs := by
  obtain ⟨n, _, hn⟩ := List.exists_of_findSome?_eq_some h
  rw [spelling_of_ofSpelling? hn, String.toList_ofList]
  exact List.take_prefix n cs

theorem spelling_ne_nil (s : Symbol) : s.spelling.toList ≠ [] := by
  have h : ∀ s ∈ all, s.spelling.toList ≠ [] := by decide +kernel
  exact h s s.mem_all

end Symbol
end ClassText
