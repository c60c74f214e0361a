import ClassText.Canonical.Tree
import Mathlib.Tactic.Common

/-! The grammar of the language, as rules that derive trees from tokens. Compound symbols stand taken
apart throughout, so that every closing `>` is a token of its own. The rules say nothing of how
tokens are read. -/
namespace ClassText.Grammar

section Lists

variable {α : Type} (item : List Token → α → Prop)

/-- Items one behind the other. -/
inductive Sequence : List Token → List α → Prop
  | nil : Sequence [] []
  | cons : item p a → Sequence q as → Sequence (p ++ q) (a :: as)

/-- Any number of items, each behind a sign. -/
inductive Further (sign : Symbol) : List Token → List α → Prop
  | nil : Further sign [] []
  | cons : item p a → Further sign q as → Further sign (.symbol sign :: (p ++ q)) (a :: as)

/-- At least one item, with a sign between any two. -/
inductive Separated (sign : Symbol) : List Token → List α → Prop
  | intro : item p a → Further item sign q as → Separated sign (p ++ q) (a :: as)

/-- An item or nothing. -/
inductive Optional : List Token → Option α → Prop
  | none : Optional [] none
  | some : item p a → Optional p (some a)

end Lists

/-- A name is one identifier. -/
inductive DerivesName : List Token → Name → Prop
  | intro (n : Name) : DerivesName [.identifier n.text] n

/-- Primitive and named types, the latter with or without arguments, and arrays of any depth. -/
inductive DerivesType : List Token → TypeExpr → Prop
  | primitive (kind : Primitive) : DerivesType [.keyword kind.keyword] (.primitive kind)
  | reference (n : Name) : DerivesType [.identifier n.text] (.reference n)
  | generic (n : Name) : DerivesType p first → Further DerivesType .comma q others →
      DerivesType (.identifier n.text :: .symbol .lt :: (p ++ q ++ [.symbol .gt]))
        (.generic n first others)
  | array : DerivesType p element →
      DerivesType (p ++ [.symbol .leftBracket, .symbol .rightBracket]) (.array element)

mutual

/-- Operands with operators between them. An operator applies to all that follows it. -/
inductive DerivesExpr : List Token → Expr → Prop
  | operand : DerivesOperand p e → DerivesExpr p e
  | operation (op : Operator) : DerivesOperand p left → DerivesExpr q right →
      DerivesExpr (p ++ .symbol op.symbol :: q) (.binary op left right)

inductive DerivesOperand : List Token → Expr → Prop
  | constant (value : Nat) (isLong : Bool) :
      DerivesOperand [.integer value isLong] (.constant value isLong)
  | chain : DerivesChain p e → DerivesOperand p e
  | bracket : DerivesExpr p e →
      DerivesOperand (.symbol .leftParen :: (p ++ [.symbol .rightParen])) (.bracket e)

/-- A variable, and behind it any number of fields and calls. -/
inductive DerivesChain : List Token → Expr → Prop
  | variable (n : Name) : DerivesChain [.identifier n.text] (.variable n)
  | field (n : Name) : DerivesChain p base →
      DerivesChain (p ++ [.symbol .dot, .identifier n.text]) (.field base n)
  | call (n : Name) : DerivesChain p base → DerivesArguments q arguments →
      DerivesChain (p ++ .symbol .dot :: .identifier n.text :: .symbol .leftParen ::
        (q ++ [.symbol .rightParen])) (.call base n arguments)

inductive DerivesArguments : List Token → List Expr → Prop
  | nil : DerivesArguments [] []
  | cons : DerivesExpr p e → Further DerivesExpr .comma q es → DerivesArguments (p ++ q) (e :: es)

end

/-- A sign of assignment and a value behind it. -/
inductive DerivesInitializer : List Token → Expr → Prop
  | intro : DerivesExpr p e → DerivesInitializer (.symbol .assign :: p) e

def finalWord (isFinal : Bool) : List Token := if isFinal then [.keyword .final] else []

def modifierWords (ms : List Modifier) : List Token := ms.map fun m => .keyword m.keyword

/-- The rule by which the first two tokens tell a local declaration from a chain. -/
def opensLocal : List Token → Bool
  | .keyword k :: _ => k = .final || Primitive.all.any (·.keyword = k)
  | .identifier _ :: .identifier _ :: _ => true
  | .identifier _ :: .symbol .lt :: _ => true
  | .identifier _ :: .symbol .leftBracket :: _ => true
  | _ => false

/-- The five forms of statements. -/
inductive DerivesStatement : List Token → Statement → Prop
  | declareLocal : DerivesType p type → DerivesName q n → Optional DerivesInitializer r value →
      opensLocal (finalWord isFinal ++ p ++ q ++ r ++ [.symbol .semicolon]) = true →
      DerivesStatement (finalWord isFinal ++ p ++ q ++ r ++ [.symbol .semicolon])
        (.declareLocal isFinal type n value)
  | returnValue : DerivesExpr p value →
      DerivesStatement (.keyword .«return» :: (p ++ [.symbol .semicolon])) (.returnValue value)
  | empty : DerivesStatement [.symbol .semicolon] .empty
  | assignField : DerivesChain p (.field base n) → DerivesInitializer q value →
      opensLocal (p ++ q ++ [.symbol .semicolon]) = false →
      DerivesStatement (p ++ q ++ [.symbol .semicolon]) (.assignField base n value)
  | callMethod : DerivesChain p (.call base n arguments) →
      opensLocal (p ++ [.symbol .semicolon]) = false →
      DerivesStatement (p ++ [.symbol .semicolon]) (.callMethod base n arguments)

inductive DerivesParameter : List Token → Parameter → Prop
  | intro : DerivesType p type → DerivesName q n →
      DerivesParameter (finalWord isFinal ++ p ++ q) ⟨isFinal, type, n⟩

inductive DerivesParameters : List Token → List Parameter → Prop
  | nil : DerivesParameters [] []
  | some : Separated DerivesParameter .comma p ps → DerivesParameters p ps

/-- Statements in braces, or a semicolon in their place. -/
inductive DerivesBody : List Token → Option (List Statement) → Prop
  | none : DerivesBody [.symbol .semicolon] none
  | some : Sequence DerivesStatement p body →
      DerivesBody (.symbol .leftBrace :: (p ++ [.symbol .rightBrace])) (some body)

/-- A member with a parenthesis behind its name is a method; any other is a field. -/
inductive DerivesMember : List Token → Member → Prop
  | field : DerivesType p type → DerivesName q n → Optional DerivesInitializer r value →
      DerivesMember (modifierWords ms ++ p ++ q ++ r ++ [.symbol .semicolon])
        (.field ⟨ms, type, n, value⟩)
  | method : DerivesType p type → DerivesName q n → DerivesParameters r ps → DerivesBody b body →
      DerivesMember (modifierWords ms ++ p ++ q ++ .symbol .leftParen ::
        (r ++ .symbol .rightParen :: b)) (.method ⟨ms, type, n, ps, body⟩)

/-- A dotted name with a reserved word before it and a semicolon behind. -/
inductive DerivesQualified (opening : Keyword) : List Token → QualifiedName → Prop
  | intro : Separated DerivesName .dot p (first :: others) →
      DerivesQualified opening (.keyword opening :: (p ++ [.symbol .semicolon])) ⟨first, others⟩

inductive DerivesSuperclass : List Token → Name → Prop
  | intro : DerivesName p n → DerivesSuperclass (.keyword .«extends» :: p) n

inductive DerivesInterfaces : List Token → List Name → Prop
  | nil : DerivesInterfaces [] []
  | some : Separated DerivesName .comma p ns → DerivesInterfaces (.keyword .implements :: p) ns

/-- Everything before the members of a class, the opening brace included. -/
inductive DerivesHead : List Token → ClassDecl → Prop
  | intro (c : ClassDecl) : Optional (DerivesQualified .package) p c.package →
      Sequence (DerivesQualified .«import») q c.imports → DerivesName r c.name →
      Optional DerivesSuperclass t c.superclass → DerivesInterfaces u c.interfaces →
      DerivesHead (p ++ q ++ modifierWords c.modifiers ++ .keyword .«class» ::
        (r ++ t ++ u ++ [.symbol .leftBrace])) c

/-- A class. Its fields and its methods keep their order, though they may stand mixed. -/
inductive DerivesClass : List Token → ClassDecl → Prop
  | intro : DerivesHead p c → Sequence DerivesMember q members →
      c.fields = members.filterMap Member.field? → c.methods = members.filterMap Member.method? →
      DerivesClass (p ++ q ++ [.symbol .rightBrace]) c

/-- A type with its name behind it shows itself in the first two tokens. -/
theorem opensLocal_of_type : (t : TypeExpr) → {p us : List Token} → DerivesType p t →
    ((∃ name, us.head? = some (.identifier name)) ∨ us.head? = some (.symbol .leftBracket)) →
    opensLocal (p ++ us) = true
  | _, _, us, .primitive k, _ => by cases k <;> rfl
  | _, _, us, .reference n, h => by
    cases us with
    | nil => simp at h
    | cons u us => obtain ⟨_, h⟩ | h := h <;> cases h <;> rfl
  | _, _, us, .generic n _ _, _ => rfl
  | .array e, _, us, .array he, _ => by
    rw [List.append_assoc]
    exact opensLocal_of_type e he (.inr rfl)

theorem opensLocal_of_chain : (e : Expr) → {p us : List Token} → DerivesChain p e →
    us.head? = some (.symbol .dot) → opensLocal (p ++ us) = false
  | _, _, us, .variable n, h => by
    cases us with
    | nil => cases h
    | cons u us => cases h; rfl
  | .field b _, _, us, .field _ hb, _ => by
    rw [List.append_assoc]
    exact opensLocal_of_chain b hb rfl
  | .call b _ _, _, us, .call _ hb _, _ => by
    rw [List.append_assoc]
    exact opensLocal_of_chain b hb rfl

theorem opensLocal_of_field {base : Expr} {n : Name} {p us : List Token}
    (h : DerivesChain p (.field base n)) : opensLocal (p ++ us) = false := by
  cases h with
  | field _ hb =>
    rw [List.append_assoc]
    exact opensLocal_of_chain base hb rfl

theorem opensLocal_of_call {base : Expr} {n : Name} {es : List Expr} {p us : List Token}
    (h : DerivesChain p (.call base n es)) : opensLocal (p ++ us) = false := by
  cases h with
  | call _ hb =>
    rw [List.append_assoc]
    exact opensLocal_of_chain base hb rfl

theorem opensLocal_of_declared (isFinal : Bool) {type : TypeExpr} {n : Name} {p us : List Token}
    (h : DerivesType p type) :
    opensLocal (finalWord isFinal ++ (p ++ .identifier n.text :: us)) = true := by
  cases isFinal with
  | true => rfl
  | false =>
    rw [finalWord, if_neg (by decide), List.nil_append]
    exact opensLocal_of_type type h (.inl ⟨n.text,rfl⟩)

end ClassText.Grammar
