import ClassText.Proofs.Reader.Rounds
import ClassText.Reader.Declaration
import Mathlib.Tactic.Common

/-! What is true of the single steps of readers, and stays true where readers are put together, is true of
all readers: of those that repeat and nest others, and from them, part by part, of those of types,
expressions, statements, members and classes. -/
namespace ClassText.Reader

/-- A property of readers that the single steps have, and that putting readers together keeps. How many
tokens are unread may be asked for, since that is what bounds repetition and nesting. -/
structure Closed (P : (α : Type) → Reader α → Prop) : Prop where
  pure : ∀ {α : Type} (a : α), P α (pure a)
  bind : ∀ {α β : Type} {x : Reader α} {f : α → Reader β}, P α x → (∀ a, P β (f a)) → P β (x >>= f)
  bounded : ∀ {α : Type} {f : Nat → Reader α}, (∀ n, P α (f n)) →
    P α (do f (← get).unread.length)
  peek? : ∀ n, P _ (peek? n)
  skip : P _ skip
  record : ∀ m, P _ (record m)
  build : ∀ {α : Type} (made : Except Fault α), P α (build made)
  tooFew : ∀ {α : Type} (xs : List Expected), P α (tooFew xs)
  tooFewInBody : ∀ {α : Type}, P α tooFewInBody
  unexpected : ∀ {α : Type} (x : Expected), P α (unexpected x)
  /-- The cursor is split only at a compound symbol, and only as this symbol prescribes. -/
  splitting : P _ (expect (.symbol .gt)) → P _ closingAngle
  /-- A statement that begins with a chain may be refused with the place where it begins. -/
  chainStatement : P _ (chain expression) → P _ expression → P _ (expect (.symbol .assign)) →
    P _ (expect (.symbol .semicolon)) → P _ chainStatement

namespace Closed

variable {P : (α : Type) → Reader α → Prop} {α : Type}

theorem ite {p : Prop} [Decidable p] {r r' : Reader α} (hr : P α r) (hr' : P α r') :
    P α (if p then r else r') := by
  split_ifs
  · exact hr
  · exact hr'

theorem nestedWithin {ended : Reader α} {body : Reader α → Reader α} (hended : P _ ended)
    (hbody : ∀ r, P _ r → P _ (body r)) (n : Nat) : P _ (nestedWithin ended body n) := by
  induction n with
  | zero => exact hended
  | succ n ih => exact hbody _ ih

variable (h : Closed P)
include h

section Steps

theorem current? : P _ current? := h.peek? 0

theorem atEnd : P _ atEnd := h.bind h.current? fun _ => h.pure _

theorem sees (t : Token) : P _ (sees t) := h.bind h.current? fun _ => h.pure _

theorem accept (t : Token) : P _ (accept t) :=
  h.bind (h.sees t) fun _ => ite (h.bind h.skip fun _ => h.pure _) (h.pure _)

theorem expect (t : Token) : P _ (expect t) := h.bind (h.sees t) fun _ => ite h.skip (h.unexpected _)

theorem identifier (role : String) : P _ (identifier role) := by
  refine h.bind h.current? fun o => ?_
  cases o with
  | none => exact h.unexpected _
  | some t =>
    cases t with
    | identifier name => exact h.bind h.skip fun _ => h.pure name
    | _ => exact h.unexpected _

theorem closingAngle : P _ closingAngle := h.splitting (h.expect _)

end Steps

section Repetition

theorem collectWithin {step : Reader (Option α)} (hs : P _ step) (n : Nat) :
    P _ (collectWithin step n) := by
  induction n with
  | zero => exact h.pure []
  | succ n ih =>
    refine h.bind hs fun o => ?_
    cases o with
    | none => exact h.pure []
    | some a => exact h.bind ih fun as => h.pure (a :: as)

theorem collect {step : Reader (Option α)} (hs : P _ step) : P _ (collect step) :=
  h.bounded fun n => h.collectWithin hs (n + 1)

theorem extendWithin {step : α → Reader (Option α)} (hs : ∀ a, P _ (step a)) (n : Nat) (a : α) :
    P _ (extendWithin step n a) := by
  induction n generalizing a with
  | zero => exact h.pure a
  | succ n ih =>
    refine h.bind (hs a) fun o => ?_
    cases o with
    | none => exact h.pure a
    | some b => exact ih b

theorem extend {step : α → Reader (Option α)} (hs : ∀ a, P _ (step a)) (a : α) :
    P _ (extend step a) :=
  h.bounded fun n => h.extendWithin hs (n + 1) a

theorem oneBehind {item : Reader α} (t : Token) (hi : P _ item) :
    P _ (oneBehind t item) :=
  h.bind (h.accept t) fun _ => ite (h.bind hi fun a => h.pure (some a)) (h.pure none)

theorem eachBehind {item : Reader α} (t : Token) (hi : P _ item) : P _ (eachBehind t item) :=
  h.collect (h.oneBehind t hi)

theorem nested {ended : Reader α} {body : Reader α → Reader α} (hended : P _ ended)
    (hbody : ∀ r, P _ r → P _ (body r)) : P _ (nested ended body) :=
  h.bounded fun n => nestedWithin hended hbody n

/-- The question whether the end is reached comes before the one what stands there. -/
theorem unlessAtEnd {x : Reader Unit} {f : Unit → Reader α} (hx : P _ x) (hf : ∀ u, P _ (f u)) :
    P _ (do if ← Reader.atEnd then (x >>= f) else f ()) :=
  h.bind h.atEnd fun _ => ite (h.bind hx hf) (hf ())

end Repetition

section Types

theorem arrayBrackets (element : TypeExpr) : P _ (arrayBrackets element) :=
  h.bind (h.accept _) fun _ => ite (h.bind (h.expect _) fun _ => h.pure _) (h.pure none)

theorem namedType {argument : Reader TypeExpr} (ha : P _ argument) : P _ (namedType argument) := by
  refine h.bind (h.identifier _) fun name => h.bind (h.accept _) fun _ => ite ?_ (h.build _)
  exact h.bind ha fun first => h.bind (h.eachBehind _ ha) fun others =>
    h.bind h.closingAngle fun _ => h.build _

theorem elementType {argument : Reader TypeExpr} (ha : P _ argument) : P _ (elementType argument) := by
  refine h.bind h.current? fun o => ?_
  cases o with
  | none => exact h.tooFew _
  | some t =>
    cases t with
    | identifier name => exact h.namedType ha
    | keyword k =>
      dsimp only
      cases Primitive.ofKeyword? k with
      | none => exact h.unexpected _
      | some kind => exact h.bind h.skip fun _ => h.pure _
    | _ => exact h.unexpected _

theorem typeExpr : P _ typeExpr :=
  h.nested (h.tooFew _) fun _ ha => h.bind (h.elementType ha) fun e => h.extend h.arrayBrackets e

end Types

section Expressions

variable {inner : Reader Expr} (hi : P _ inner)
include hi

theorem arguments : P _ (arguments inner) := by
  refine h.bind (h.sees _) fun _ => ite (h.bind (h.expect _) fun _ => h.pure _) ?_
  exact h.bind hi fun first => h.bind (h.eachBehind _ hi) fun others =>
    h.bind (h.expect _) fun _ => h.pure _

/-- What a chain goes on with behind a dot. -/
theorem linkBehindDot (base : Expr) : P _ (do
    let name ← Reader.identifier Role.memberName
    if ← Reader.accept (.symbol .leftParen) then
      let given ← Reader.arguments inner
      return some (← Reader.build (Expr.checkCall base name given))
    else
      return some (← Reader.build (Expr.checkField base name))) := by
  refine h.bind (h.identifier _) fun name => h.bind (h.accept _) fun _ => ite ?_ ?_
  · exact h.bind (h.arguments hi) fun given => h.bind (h.build _) fun e => h.pure (some e)
  · exact h.bind (h.build _) fun e => h.pure (some e)

theorem chainLink (base : Expr) : P _ (chainLink inner base) := by
  refine h.bind (h.sees _) fun dotted => h.bind (h.peek? 1) fun o => ?_
  cases o with
  | none => exact h.pure none
  | some t =>
    cases t with
    | identifier x => exact ite (h.bind h.skip fun _ => h.linkBehindDot hi base) (h.pure none)
    | _ => exact h.pure none

theorem chain : P _ (chain inner) :=
  h.bind (h.identifier _) fun _ => h.bind (h.build _) fun e => h.extend (h.chainLink hi) e

theorem operand : P _ (operand inner) := by
  refine h.bind h.current? fun o => ?_
  cases o with
  | none => exact h.tooFew _
  | some t =>
    cases t with
    | integer value isLong => exact h.bind h.skip fun _ => h.pure _
    | identifier name => exact h.chain hi
    | symbol x =>
      cases x with
      | leftParen =>
        exact h.bind h.skip fun _ => h.bind hi fun e => h.bind (h.expect _) fun _ => h.pure _
      | _ => exact h.unexpected _
    | _ => exact h.unexpected _

theorem operation : P _ (operation inner) := by
  refine h.bind h.current? fun o => ?_
  cases o.bind Operator.ofToken? with
  | none => exact h.pure none
  | some op => exact h.bind h.skip fun _ => h.bind (h.operand hi) fun e => h.pure (some (op, e))

theorem expressionBody : P _ (expressionBody inner) :=
  h.bind (h.operand hi) fun _ => h.bind (h.collect (h.operation hi)) fun _ => h.pure _

omit hi

theorem expression : P _ expression := h.nested (h.tooFew _) fun _ hi => h.expressionBody hi

end Expressions

section Statements

theorem initializer : P _ initializer := h.oneBehind _ h.expression

theorem localDeclaration (isFinal : Bool) : P _ (localDeclaration isFinal) :=
  h.bind h.typeExpr fun _ => h.bind (h.identifier _) fun _ => h.unlessAtEnd (h.tooFew _) fun _ =>
    h.bind h.initializer fun _ => h.bind (h.expect _) fun _ => h.bind (h.build _) fun _ => h.pure _

theorem statementBody : P _ statementBody := by
  have hchain := h.chainStatement (h.chain h.expression) h.expression (h.expect _) (h.expect _)
  refine h.bind h.current? fun o => ?_
  cases o with
  | none => exact h.tooFew _
  | some t =>
    cases t with
    | keyword k =>
      cases k with
      | final => exact h.bind h.skip fun _ => h.localDeclaration true
      | «return» =>
        exact h.bind h.skip fun _ => h.bind h.expression fun _ => h.bind (h.expect _) fun _ => h.pure _
      | _ => exact ite (h.localDeclaration false) (h.unexpected _)
    | symbol x =>
      cases x with
      | semicolon => exact h.bind h.skip fun _ => h.pure _
      | _ => exact h.unexpected _
    | identifier name => exact h.bind (h.peek? 1) fun _ => ite (h.localDeclaration false) hchain
    | _ => exact h.unexpected _

theorem statement : P _ statement :=
  h.bind h.statementBody fun _ => h.bind (h.record _) fun _ => h.pure _

end Statements

section Declarations

theorem qualifiedName (role : String) : P _ (qualifiedName role) :=
  h.bind (h.identifier _) fun _ => h.bind (h.eachBehind _ (h.identifier _)) fun _ =>
    h.bind (h.expect _) fun _ => h.build _

theorem modifier? : P _ modifier? := by
  refine h.bind h.current? fun o => ?_
  cases o with
  | none => exact h.pure none
  | some t =>
    cases t with
    | keyword k =>
      dsimp only
      cases Modifier.ofKeyword? k with
      | none => exact h.pure none
      | some m => exact h.bind h.skip fun _ => h.pure (some m)
    | _ => exact h.pure none

theorem modifiers : P _ modifiers := h.collect h.modifier?

theorem fieldRest (ms : List Modifier) (type : TypeExpr) (name : String) :
    P _ (fieldRest ms type name) := by
  refine h.unlessAtEnd (h.tooFew _) fun _ => h.bind (h.accept _) fun _ => ite ?_ ?_
  · exact h.bind (h.build _) fun _ => h.pure _
  · exact h.bind (h.expect _) fun _ => h.bind h.expression fun _ => h.bind (h.expect _) fun _ =>
      h.bind (h.build _) fun _ => h.pure _

theorem parameter : P _ parameter :=
  h.bind (h.accept _) fun _ => h.bind h.typeExpr fun _ => h.bind (h.identifier _) fun _ =>
    h.bind (h.build _) fun _ => h.pure _

theorem parameters : P _ parameters :=
  h.bind (h.sees _) fun _ => ite (h.pure []) <|
    h.bind h.parameter fun _ => h.bind (h.eachBehind _ h.parameter) fun _ => h.pure _

theorem itemOrBrace {ended : Reader Unit} {item : Reader α} (hended : P _ ended) (hi : P _ item) :
    P _ (itemOrBrace ended item) :=
  h.unlessAtEnd hended fun _ => h.bind (h.accept _) fun _ =>
    ite (h.pure none) (h.bind hi fun a => h.pure (some a))

theorem body : P _ body := h.collect (h.itemOrBrace h.tooFewInBody h.statement)

theorem methodRest (ms : List Modifier) (result : TypeExpr) (name : String) :
    P _ (methodRest ms result name) := by
  refine h.bind (h.expect _) fun _ => h.bind h.parameters fun _ => h.bind (h.expect _) fun _ =>
    h.unlessAtEnd (h.tooFew _) fun _ => h.bind (h.accept _) fun _ => ite ?_ ?_
  · exact h.bind (h.build _) fun _ => h.pure _
  · exact h.bind (h.expect _) fun _ => h.bind h.body fun _ => h.bind (h.build _) fun _ => h.pure _

theorem memberRest (ms : List Modifier) (type : TypeExpr) (name : String) :
    P _ (memberRest ms type name) := by
  refine h.bind (h.sees _) fun _ => ite ?_ ?_
  · exact h.bind (h.methodRest ms type name) fun _ => h.bind (h.record _) fun _ => h.pure _
  · exact h.bind (h.fieldRest ms type name) fun _ => h.bind (h.record _) fun _ => h.pure _

theorem member : P _ member :=
  h.bind h.modifiers fun _ => h.bind h.typeExpr fun _ => h.bind (h.identifier _) fun _ =>
    h.memberRest _ _ _

theorem members : P _ members := h.collect (h.itemOrBrace (h.tooFew _) h.member)

theorem package : P _ package := h.oneBehind _ (h.qualifiedName _)

theorem imports : P _ imports := h.collect (h.oneBehind _ (h.qualifiedName _))

theorem superclass : P _ superclass := h.oneBehind _ (h.identifier _)

theorem interfaces : P _ interfaces := by
  refine h.bind (h.accept _) fun _ => ite (h.bind (h.identifier _) fun _ => ?_) (h.pure [])
  exact h.bind (h.eachBehind _ (h.identifier _)) fun _ => h.pure _

/-- The parts of a class in turn, then the checks of its names. -/
theorem classDecl : P _ classDecl := by
  refine h.bind h.package fun _ => h.bind h.imports fun _ => h.bind h.modifiers fun _ => ?_
  refine h.bind (h.expect _) fun _ => h.bind (h.identifier _) fun _ => ?_
  refine h.bind h.superclass fun _ => h.bind h.interfaces fun _ => ?_
  refine h.bind (h.expect _) fun _ => h.bind h.members fun _ => ?_
  exact h.bind (h.build _) fun _ => h.bind (h.build _) fun _ => h.bind (h.build _) fun _ => h.pure _

theorem nextDeclaration : P _ nextDeclaration :=
  h.bind h.atEnd fun _ => ite (h.pure none) <|
    h.bind h.classDecl fun _ => h.bind (h.record _) fun _ => h.pure _

end Declarations

end Closed
end ClassText.Reader
