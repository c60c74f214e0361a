import ClassText.Proofs.Advance.Calls
import ClassText.Proofs.Advance.Loops

/-! Why reading ends. All that is read takes something from what is still to be read; what is read again
within itself, or in a further round of a loop, starts on less. So the bounds on rounds and on depth with
which readers are defined are never reached. -/
namespace ClassText.Reader

/-- `r` is what `body` makes of `r` itself, and so is any number of levels that is more than what is to be
read, whatever would be answered below the last one. -/
structure Nests {α : Type} (r : Reader α) (body : Reader α → Reader α) : Prop where
  eq : r = body r
  enough : ∀ below n s, s.remaining < n → (nestedWithin below body n).run s = r.run s

theorem Guarded.nests {α : Type} {ended r : Reader α} {body : Reader α → Reader α}
    (h : Guarded ended body) (hr : r = body r) : Nests r body where
  eq := hr
  enough below n s hn := by
    rw [← Reading.length_unread] at hn
    exact (h.agrees_nestedWithin_of_lt hr below hn (Nat.le_refl _)).1.symm

/-- The loops of the readers, each with its step. -/
structure LoopsDescend : Prop where
  imports : Collects imports (oneBehind (.keyword .«import») (qualifiedName Role.importName))
  modifiers : Collects modifiers modifier?
  members : Collects members (itemOrBrace (tooFew [.token (.symbol .rightBrace), .type]) member)
  statements : Collects body (itemOrBrace tooFewInBody statement)
  parameters : Collects (eachBehind (.symbol .comma) parameter) (oneBehind (.symbol .comma) parameter)
  arguments : Collects (eachBehind (.symbol .comma) expression) (oneBehind (.symbol .comma) expression)
  operations : Collects (collect (operation expression)) (operation expression)
  links : ExtendsBy (extend (chainLink expression)) (chainLink expression)
  brackets : ExtendsBy (extend arrayBrackets) arrayBrackets
  typeArguments : Collects (eachBehind (.symbol .comma) typeExpr) (oneBehind (.symbol .comma) typeExpr)
  /-- Segments of a qualified name, and interfaces. -/
  names : ∀ sign role, Collects (eachBehind sign (identifier role)) (oneBehind sign (identifier role))

theorem loopsDescend : LoopsDescend where
  imports := (consumes_oneBehind _ (closed_onward.qualifiedName _)).collects
  modifiers := consumes_modifier?.collects
  members := (consumes_itemOrBrace (closed_onward.tooFew _) TakesAt.member).collects
  statements := (consumes_itemOrBrace closed_onward.tooFewInBody TakesAt.statement).collects
  parameters := (consumes_oneBehind _ closed_onward.parameter).collects
  arguments := (consumes_oneBehind _ closed_onward.expression).collects
  operations := (consumes_operation forward_expression).collects
  links := Consumes.extendsBy consumes_chainLink
  brackets := Consumes.extendsBy consumes_arrayBrackets
  typeArguments := (consumes_oneBehind _ closed_onward.typeExpr).collects
  names _ _ := (consumes_oneBehind _ (closed_onward.identifier _)).collects

/-- From every state, a type, an expression, a chain, a statement, a member and a class lower what is still
to be read where they are read, and do not raise it where they are refused. A routine that is asked again
within itself, by whatever way, is asked on less, no chain of calls is endless, and every round of a loop
starts on less than all rounds before it. Loops and nested readers obey the equations by which they would
be described without any bound, and any bound above what is still to be read is as good. -/
theorem reading_descends :
    (Progresses typeExpr ∧ Progresses expression ∧ Progresses (chain expression) ∧
      Progresses statement ∧ Progresses member ∧ Progresses classDecl) ∧
    (typeExpr = typeWith (namedType typeExpr) ∧ expression = expressionWith (operand expression) ∧
      operand expression = operandWith (chain expression) expression ∧
      chain expression = chainWith (arguments expression)) ∧
    (∀ f s u, Relation.TransGen Calls (f, s) (f, u) → u.remaining < s.remaining) ∧
    (WellFounded fun p q => Calls q p) ∧
    LoopsDescend ∧ Nests typeExpr typeBody ∧ Nests expression expressionBody := by
  have h := closed_onward
  have hopened : typeExpr = typeWith (namedType typeExpr) ∧
      expression = expressionWith (operand expression) :=
    ⟨typeExpr_eq.trans (typeBody_eq_typeWith _), expression_eq.trans (expressionBody_eq_expressionWith _)⟩
  refine ⟨⟨?_, ?_, ?_, ?_, ?_, ?_⟩,
    ⟨hopened.1, hopened.2, operand_eq_operandWith _, chain_eq_chainWith _⟩,
    fun _ _ _ => remaining_lt_of_transGen, wellFounded_calls, loopsDescend,
    guarded_typeBody.nests typeExpr_eq, guarded_expressionBody.nests expression_eq⟩
  · exact h.typeExpr.progresses TakesAt.typeExpr
  · exact h.expression.progresses TakesAt.expression
  · exact (h.chain h.expression).progresses TakesAt.chain
  · exact h.statement.progresses TakesAt.statement
  · exact h.member.progresses TakesAt.member
  · exact h.classDecl.progresses TakesAt.classDecl

/-- A type between angles is read within a type, two tokens further on. -/
theorem reading_descends_angles :
    let located (t : Token) : Located := ⟨t, .origin, ⟨0, 0⟩⟩
    let s := Reading.ofTokens
      ([.identifier "A", .symbol .lt, .identifier "B", .symbol .gt].map located)
    let u := s.advance.advance
    Relation.TransGen Calls (.type, s) (.type, u) ∧ u.remaining < s.remaining := by
  intro located s u
  have hnamed : Asks typeWith (namedType typeExpr) s s := .of_stopping rfl rfl
  have hargument : Asks namedType typeExpr s u := .of_stopping rfl rfl
  have hcalls : Relation.TransGen Calls (.type, s) (.type, u) :=
    .tail (.single (.typeNamed hnamed)) (.namedArgument hargument)
  exact ⟨hcalls, reading_descends.2.2.1 .type s u hcalls⟩

end ClassText.Reader
