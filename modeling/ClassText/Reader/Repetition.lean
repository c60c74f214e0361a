import ClassText.Reader.Basic

/-! Repetition and nesting. Both are bounded by the number of unread tokens, which every round and every
level of nesting lowers. -/
namespace ClassText.Reader

/-- At most `n` results of a step, up to the first round in which it gives none. -/
def collectWithin (step : Reader (Option α)) : Nat → Reader (List α)
  | 0 => pure []
  | n + 1 => do
    match ← step with
    | none => return []
    | some a => return a :: (← collectWithin step n)

/-- The results of a step that consumes at least one token whenever it gives one. -/
def collect (step : Reader (Option α)) : Reader (List α) := do
  collectWithin step ((← get).unread.length + 1)

/-- At most `n` rounds of a step, each on the result of the one before. -/
def extendWithin (step : α → Reader (Option α)) : Nat → α → Reader α
  | 0, a => pure a
  | n + 1, a => do
    match ← step a with
    | none => return a
    | some b => extendWithin step n b

/-- Extend a result as long as the step gives a further one. -/
def extend (step : α → Reader (Option α)) (a : α) : Reader α := do
  extendWithin step ((← get).unread.length + 1) a

/-- Further items, each behind the given token. -/
def eachBehind (t : Token) (item : Reader α) : Reader (List α) :=
  collect do
    if ← accept t then return some (← item) else return none

/-- A reader that contains itself to a depth of `n`. Without tokens the answer is `ended`. -/
def nestedWithin (ended : Reader α) (body : Reader α → Reader α) : Nat → Reader α
  | 0 => ended
  | n + 1 => body (nestedWithin ended body n)

/-- The reader `r` with `r = body r`, where `body` consumes a token before it reads on with its
argument, and answers `ended` where no token is left. -/
def nested (ended : Reader α) (body : Reader α → Reader α) : Reader α := do
  nestedWithin ended body (← get).unread.length

end ClassText.Reader
