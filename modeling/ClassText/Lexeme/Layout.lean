import ClassText.Text.Blank

/-! What may stand between two tokens: blanks, line comments and block comments. A block comment that
is never closed is not layout; it stays at the head of what follows. -/
namespace ClassText.Lexeme

mutual

/-- The layout at the head of a text, and what follows it. -/
def splitLayout : List Char → List Char × List Char
  | [] => ([], [])
  | '/' :: '/' :: cs =>
    let (inside, rest) := inLine cs
    ('/' :: '/' :: inside, rest)
  | '/' :: '*' :: cs =>
    match inBlock cs with
    | some (inside, rest) => ('/' :: '*' :: inside, rest)
    | none => ([], '/' :: '*' :: cs)
  | c :: cs =>
    if Text.isBlank c then
      let (inside, rest) := splitLayout cs
      (c :: inside, rest)
    else ([], c :: cs)

/-- The rest of a line comment, its newline and the layout behind it. -/
def inLine : List Char → List Char × List Char
  | [] => ([], [])
  | c :: cs =>
    let (inside, rest) := if c = '\n' then splitLayout cs else inLine cs
    (c :: inside, rest)

/-- The rest of a block comment, its end and the layout behind it; nothing if it has no end. -/
def inBlock : List Char → Option (List Char × List Char)
  | [] => none
  | '*' :: '/' :: cs =>
    let (inside, rest) := splitLayout cs
    some ('*' :: '/' :: inside, rest)
  | c :: cs => (inBlock cs).map fun (inside, rest) => (c :: inside, rest)

end

theorem layout_append :
    (∀ cs, (splitLayout cs).1 ++ (splitLayout cs).2 = cs) ∧
    (∀ cs r, inBlock cs = some r → r.1 ++ r.2 = cs) ∧
    (∀ cs, (inLine cs).1 ++ (inLine cs).2 = cs) := by
  apply splitLayout.mutual_induct
  case case8 =>
    intro cs inside rest h ih r hr
    obtain rfl : ('*' :: '/' :: inside, rest) = r := by simpa [inBlock, h] using hr
    simpa [h] using ih
  case case9 =>
    intro c cs h ih r hr
    obtain ⟨s, hs, rfl⟩ : ∃ s, inBlock cs = some s ∧ (c :: s.1, s.2) = r := by
      simpa [inBlock, h] using hr
    simpa using ih s hs
  case case11 =>
    intro c cs inside rest h ih₁ ih₂
    by_cases hc : c = '\n' <;> simp_all [inLine]
  all_goals intros; simp_all [splitLayout, inBlock, inLine]

/-- Layout and what follows it make up the text. -/
theorem splitLayout_append (cs : List Char) : (splitLayout cs).1 ++ (splitLayout cs).2 = cs :=
  layout_append.1 cs

/-- Whether a text begins with a block comment. -/
def opensBlock : List Char → Bool
  | '/' :: '*' :: _ => true
  | _ => false

end ClassText.Lexeme
