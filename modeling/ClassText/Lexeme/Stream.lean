import ClassText.Lexeme.Single

/-! The tokens of a text, one at a time or all at once. The first error ends them. -/
namespace ClassText.Lexeme

/-- A text from some place on. -/
structure Tail where
  position : Position
  text : List Char

/-- What the next look at a text finds: its end, a token and the text behind it, or an error. -/
inductive Step where
  | done
  | token (found : Located) (after : Tail)
  | error (found : LexicalError)

namespace Tail

def ofSource (source : String) : Tail := ⟨.origin, source.toList⟩

/-- Pass over layout, then read one token. -/
def step (t : Tail) : Step :=
  let (layout, text) := splitLayout t.text
  let place := t.position.after layout
  match text with
  | [] => .done
  | c :: cs =>
    match splitToken c cs with
    | .ok s => .token ⟨s.token, place, place.spanOver s.taken⟩ ⟨place.after s.taken, s.rest⟩
    | .error flaw => .error (flaw.toError place)

end Tail

/-- All tokens before the end of a text or its first error, and that error. -/
structure Scan where
  tokens : List Located
  error : Option LexicalError

/-- The tokens of a text with at most `n` characters. -/
def scanWithin : Nat → Tail → Scan
  | 0, _ => ⟨[], none⟩
  | n + 1, t =>
    match t.step with
    | .done => ⟨[], none⟩
    | .error e => ⟨[], some e⟩
    | .token l after =>
      let more := scanWithin n after
      ⟨l :: more.tokens, more.error⟩

def scan (source : String) : Scan :=
  let t := Tail.ofSource source
  scanWithin t.text.length t

/-- All tokens of a text that has no lexical error. -/
def tokenize (source : String) : Except LexicalError (List Located) :=
  let found := scan source
  match found.error with
  | some e => .error e
  | none => .ok found.tokens

/-- A reader of tokens that remembers whether it has come to the end. -/
structure Stream where
  tail : Tail
  finished : Bool

namespace Stream

def ofSource (source : String) : Stream := ⟨.ofSource source, false⟩

/-- The next token or the one error; nothing at the end of the text, nor ever after it or after an
error. -/
def next (s : Stream) : Option (Except LexicalError Located) × Stream :=
  if s.finished then (none, s)
  else
    match s.tail.step with
    | .done => (none, ⟨s.tail, true⟩)
    | .error e => (some (.error e), ⟨s.tail, true⟩)
    | .token l after => (some (.ok l), ⟨after, false⟩)

end Stream
end ClassText.Lexeme
