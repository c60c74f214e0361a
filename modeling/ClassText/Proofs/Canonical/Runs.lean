import ClassText.Proofs.Canonical.Normal
import ClassText.Proofs.Canonical.Spacing

/-! No two tokens of a canonical text are read together: the pieces of every tree whose names are words
form a run. -/
namespace ClassText

open Lexeme Piece

namespace Piece

variable {a b c : Edge} {ps qs : List Piece}

theorem run_append_some (hp : run a ps = some b) (hq : run b qs = some c) :
    run a (ps ++ qs) = some c := by
  rw [run_append, hp]
  exact hq

theorem run_word (k : Keyword) (hm : a.meets .word = true) (h : run .word ps = some b) :
    run a (word k :: ps) = some b := by
  rw [run_cons hm rfl]
  exact h

theorem run_ident {n : Name} (hn : isWord n.text = true) (hm : a.meets .word = true)
    (h : run .word ps = some b) : run a (ident n :: ps) = some b := by
  rw [run_cons (p := ident n) hm hn]
  exact h

theorem meets_gap (a : Edge) : a.meets .gap = true := by cases a <;> rfl

theorem meets_solo (a : Edge) : a.meets .solo = true := by cases a <;> rfl

theorem run_space (h : run .gap ps = some b) : run a (Piece.space :: ps) = some b := by
  rw [run_cons (meets_gap a) rfl]
  exact h

theorem run_newline (h : run .gap ps = some b) : run a (Piece.newline :: ps) = some b := by
  rw [run_cons (meets_gap a) rfl]
  exact h

theorem run_solo {s : Symbol} (hs : s.isSolo = true) (h : run .solo ps = some b) :
    run a (sign s :: ps) = some b := by
  obtain ⟨hp, hgt⟩ : s.parts = [s] ∧ s ≠ .gt := by
    cases s <;> first | exact ⟨rfl, by decide⟩ | cases hs
  have he : (sign s).edge = .solo := by simp [edge, sign, hgt, hs]
  rw [run_cons (by rw [he]; exact meets_solo a) (by simp [isPlain, sign, hp]), he]
  exact h

theorem run_operator {s : Symbol} (hs : (sign s).edge = .operator) (hp : s.parts = [s])
    (hm : a.meets .operator = true) (h : run .operator ps = some b) :
    run a (sign s :: ps) = some b := by
  rw [run_cons (by rw [hs]; exact hm) (by simp [isPlain, sign, hp]), hs]
  exact h

theorem run_angle (hm : a.meets .angle = true) (h : run .angle ps = some b) :
    run a (sign .gt :: ps) = some b := by
  rw [run_cons (p := sign .gt) hm rfl]
  exact h

/-- Pieces that lead back to where they start may be repeated. -/
theorem run_flatMap {f : α → List Piece} {as : List α} (h : ∀ x ∈ as, run a (f x) = some a) :
    run a (as.flatMap f) = some a := by
  induction as with
  | nil => rfl
  | cons x as ih =>
    rw [List.flatMap_cons]
    exact run_append_some (h x List.mem_cons_self) (ih fun y hy => h y (List.mem_cons_of_mem _ hy))

end Piece

namespace TypeExpr

mutual

theorem run_pieces : (t : TypeExpr) → (∀ n ∈ t.names, isWord n.text = true) → {a : Edge} →
    a.meets .word = true → ∃ b, run a t.pieces = some b ∧ b.meets .angle = true
  | .primitive k, _, _, ha => ⟨.word, run_word k.keyword ha rfl, rfl⟩
  | .reference n, hn, _, ha => ⟨.word, run_ident (hn n (by simp [names])) ha rfl, rfl⟩
  | .generic n first others, hn, _, ha => by
    obtain ⟨b, hb, hbm⟩ := run_pieces first (fun m hm => hn m (by simp [names, hm]))
      (a := .operator) rfl
    obtain ⟨c, hc, hcm⟩ := run_furtherPieces others (fun m hm => hn m (by simp [names, hm])) hbm
    have hclose : run .operator (pieces first ++ furtherPieces others ++ [sign .gt]) = some .angle :=
      run_append_some (run_append_some hb hc) (run_angle hcm rfl)
    exact ⟨.angle, run_ident (hn n (by simp [names])) ha
      (run_operator rfl rfl rfl hclose), rfl⟩
  | .array element, hn, _, ha => by
    obtain ⟨b, hb, -⟩ := run_pieces element hn ha
    exact ⟨.solo, run_append_some hb
      (run_solo rfl (run_solo rfl rfl)), rfl⟩

theorem run_furtherPieces : (ts : List TypeExpr) →
    (∀ n ∈ furtherNames ts, isWord n.text = true) → {a : Edge} → a.meets .angle = true →
    ∃ b, run a (furtherPieces ts) = some b ∧ b.meets .angle = true
  | [], _, a, ha => ⟨a, rfl, ha⟩
  | t :: ts, hn, _, _ => by
    obtain ⟨b, hb, hbm⟩ := run_pieces t (fun m hm => hn m (by simp [furtherNames, hm]))
      (a := .solo) rfl
    obtain ⟨c, hc, hcm⟩ := run_furtherPieces ts (fun m hm => hn m (by simp [furtherNames, hm])) hbm
    exact ⟨c, run_solo rfl (run_append_some hb hc), hcm⟩

end

end TypeExpr

namespace Expr

mutual

theorem run_pieces : (e : Expr) → (∀ n ∈ e.names, isWord n.text = true) → {a : Edge} →
    a.meets .word = true → ∃ b, run a e.pieces = some b ∧ b.meets .operator = true
  | .constant _ _, _, _, ha => ⟨.word, by rw [pieces, run_cons ha rfl]; rfl, rfl⟩
  | .variable n, hn, _, ha => ⟨.word, run_ident (hn n (by simp [names])) ha rfl, rfl⟩
  | .field base n, hn, _, ha => by
    obtain ⟨b, hb, -⟩ := run_pieces base (fun m hm => hn m (by simp [names, hm])) ha
    exact ⟨.word, run_append_some hb (run_solo rfl
      (run_ident (hn n (by simp [names])) rfl rfl)), rfl⟩
  | .call base n arguments, hn, _, ha => by
    obtain ⟨b, hb, -⟩ := run_pieces base (fun m hm => hn m (by simp [names, hm])) ha
    obtain ⟨c, hc⟩ := run_argumentPieces arguments (fun m hm => hn m (by simp [names, hm]))
    have hclose : run .solo (argumentPieces arguments ++ [sign .rightParen]) = some .solo :=
      run_append_some hc (run_solo rfl rfl)
    exact ⟨.solo, run_append_some hb (run_solo rfl
      (run_ident (hn n (by simp [names])) rfl (run_solo rfl hclose))), rfl⟩
  | .binary op left right, hn, _, ha => by
    obtain ⟨b, hb, hbm⟩ := run_pieces left (fun m hm => hn m (by simp [names, hm])) ha
    obtain ⟨c, hc, hcm⟩ := run_pieces right (fun m hm => hn m (by simp [names, hm]))
      (a := .operator) rfl
    exact ⟨c, run_append_some hb (run_operator (by cases op <;> rfl)
      (by cases op <;> rfl) hbm hc), hcm⟩
  | .bracket inner, hn, _, _ => by
    obtain ⟨b, hb, -⟩ := run_pieces inner hn (a := .solo) rfl
    exact ⟨.solo, run_solo rfl
      (run_append_some hb (run_solo rfl rfl)), rfl⟩

theorem run_argumentPieces : (es : List Expr) → (∀ n ∈ argumentNames es, isWord n.text = true) →
    ∃ b, run .solo (argumentPieces es) = some b
  | [], _ => ⟨.solo,rfl⟩
  | e :: es, hn => by
    obtain ⟨b, hb, -⟩ := run_pieces e (fun m hm => hn m (by simp [argumentNames, hm]))
      (a := .solo) rfl
    obtain ⟨c, hc⟩ := run_furtherPieces es (fun m hm => hn m (by simp [argumentNames, hm])) (a := b)
    exact ⟨c, run_append_some hb hc⟩

theorem run_furtherPieces : (es : List Expr) → (∀ n ∈ argumentNames es, isWord n.text = true) →
    {a : Edge} → ∃ b, run a (furtherPieces es) = some b
  | [], _, a => ⟨a,rfl⟩
  | e :: es, hn, _ => by
    obtain ⟨b, hb, -⟩ := run_pieces e (fun m hm => hn m (by simp [argumentNames, hm]))
      (a := .solo) rfl
    obtain ⟨c, hc⟩ := run_furtherPieces es (fun m hm => hn m (by simp [argumentNames, hm])) (a := b)
    exact ⟨c, run_solo rfl (run_append_some hb hc)⟩

end

end Expr

theorem run_initializerPieces (value : Option Expr)
    (hn : ∀ n ∈ initializerNames value, isWord n.text = true) {a : Edge}
    (ha : a.meets .operator = true) : ∃ b, run a (initializerPieces value) = some b := by
  cases value with
  | none => exact ⟨a,rfl⟩
  | some e =>
    obtain ⟨b, hb, -⟩ := e.run_pieces (fun m hm => hn m (by simp [initializerNames, hm]))
      (a := .operator) rfl
    exact ⟨b, run_operator rfl rfl ha hb⟩

theorem run_finalPieces (isFinal : Bool) {a : Edge} (ha : a.meets .word = true) :
    ∃ b, run a (finalPieces isFinal) = some b ∧ b.meets .word = true := by
  cases isFinal with
  | true => exact ⟨.gap, run_word _ ha (run_space rfl), rfl⟩
  | false => exact ⟨a,rfl,ha⟩

theorem run_modifierList (ms : List Modifier) {a : Edge} (ha : a.meets .word = true) :
    ∃ b, run a (modifierList ms) = some b ∧ b.meets .word = true := by
  cases ms with
  | nil => exact ⟨a,rfl,ha⟩
  | cons m ms =>
    have hms : run .gap (modifierList ms) = some .gap :=
      run_flatMap fun m _ => run_word _ rfl (run_space rfl)
    exact ⟨.gap, run_word _ ha (run_space hms), rfl⟩

/-- A type and a name, with a space between the two. -/
theorem run_declared {type : TypeExpr} {n : Name} {a b : Edge} {ps : List Piece}
    (ht : ∀ m ∈ type.names, isWord m.text = true) (hn : isWord n.text = true)
    (ha : a.meets .word = true) (h : run .word ps = some b) :
    run a (type.pieces ++ Piece.space :: ident n :: ps) = some b := by
  obtain ⟨c, hc, -⟩ := type.run_pieces ht ha
  exact run_append_some hc (run_space (run_ident hn rfl h))

theorem run_semicolon {a b : Edge} {ps : List Piece} (h : run a ps = some b) :
    run a (ps ++ [sign .semicolon]) = some .solo :=
  run_append_some h (run_solo rfl rfl)

theorem Statement.run_pieces (st : Statement) (hn : ∀ n ∈ st.names, isWord n.text = true) :
    run .solo st.pieces = some .solo := by
  cases st with
  | declareLocal isFinal type n value =>
    obtain ⟨a, ha, ham⟩ := run_finalPieces isFinal (a := .solo) rfl
    obtain ⟨b, hb⟩ := run_initializerPieces value (fun m hm => hn m (by simp [names, hm]))
      (a := .word) rfl
    rw [pieces, List.append_assoc]
    exact run_append_some ha (run_declared (fun m hm => hn m (by simp [names, hm]))
      (hn n (by simp [names])) ham (run_semicolon hb))
  | returnValue value =>
    obtain ⟨b, hb, -⟩ := value.run_pieces hn (a := .gap) rfl
    exact run_word _ rfl (run_space (run_semicolon hb))
  | empty => exact run_solo rfl rfl
  | assignField base n value =>
    obtain ⟨b, hb, hbm⟩ := (Expr.field base n).run_pieces (fun m hm => hn m (by simp [names, hm]))
      (a := .solo) rfl
    obtain ⟨c, hc, -⟩ := value.run_pieces (fun m hm => hn m (by simp [names, hm]))
      (a := .operator) rfl
    exact run_append_some hb (run_operator rfl rfl hbm (run_semicolon hc))
  | callMethod base n arguments =>
    obtain ⟨b, hb, -⟩ := (Expr.call base n arguments).run_pieces hn (a := .solo) rfl
    exact run_semicolon hb

theorem Field.run_pieces (f : Field) (hn : ∀ n ∈ f.names, isWord n.text = true) :
    run .gap f.pieces = some .solo := by
  obtain ⟨a, ha, ham⟩ := run_modifierList f.modifiers (a := .gap) rfl
  obtain ⟨b, hb⟩ := run_initializerPieces f.initializer (fun m hm => hn m (by simp [names, hm]))
    (a := .word) rfl
  rw [pieces, List.append_assoc]
  exact run_append_some ha (run_declared (fun m hm => hn m (by simp [names, hm]))
    (hn _ (by simp [names])) ham (run_semicolon hb))

theorem Parameter.run_pieces (p : Parameter) (hn : ∀ n ∈ p.names, isWord n.text = true) :
    run .solo p.pieces = some .word := by
  obtain ⟨a, ha, ham⟩ := run_finalPieces p.isFinal (a := .solo) rfl
  rw [pieces, List.append_assoc]
  exact run_append_some ha (run_declared (fun m hm => hn m (by simp [names, hm]))
    (hn _ (by simp [names])) ham rfl)

theorem Parameter.run_listPieces (ps : List Parameter)
    (hn : ∀ p ∈ ps, ∀ n ∈ p.names, isWord n.text = true) :
    ∃ b, run .solo (listPieces ps) = some b := by
  cases ps with
  | nil => exact ⟨.solo,rfl⟩
  | cons p ps =>
    have hps : run .word (ps.flatMap fun q => sign .comma :: q.pieces) = some .word :=
      run_flatMap fun q hq => run_solo rfl
        (q.run_pieces (hn q (List.mem_cons_of_mem _ hq)))
    exact ⟨.word, run_append_some (p.run_pieces (hn p List.mem_cons_self)) hps⟩

theorem Method.run_pieces (m : Method) (hn : ∀ n ∈ m.names, isWord n.text = true) :
    run .gap m.pieces = some .solo := by
  obtain ⟨a, ha, ham⟩ := run_modifierList m.modifiers (a := .gap) rfl
  obtain ⟨b, hb⟩ := Parameter.run_listPieces m.parameters
    fun p hp n hm => hn n (List.mem_append_right _ (List.mem_cons_of_mem _
      (List.mem_append_left _ (List.mem_flatMap.2 ⟨p,hp,hm⟩))))
  have hbody : run .solo (bodyPieces m.body) = some .solo := by
    cases hm : m.body with
    | none => exact run_solo rfl rfl
    | some sts =>
      have hsts : run .solo (sts.flatMap Statement.pieces) = some .solo :=
        run_flatMap fun st hst => st.run_pieces fun n hst' => hn n (List.mem_append_right _
          (List.mem_cons_of_mem _ (List.mem_append_right _ (List.mem_flatMap.2
            ⟨sts, by simp [hm], List.mem_flatMap.2 ⟨st,hst,hst'⟩⟩))))
      exact run_solo rfl (run_append_some hsts (run_solo rfl rfl))
  rw [pieces, List.append_assoc]
  exact run_append_some ha (run_declared (fun m hm => hn m (by simp [names, hm]))
    (hn _ (by simp [names])) ham (run_solo rfl
      (run_append_some hb (run_solo rfl hbody))))

/-- Names with a sign between any two begin and end with a word. -/
theorem run_nameList {between : Symbol} (hb : between.isSolo = true) {n : Name} {ns : List Name}
    (hn : ∀ m ∈ n :: ns, isWord m.text = true) {a : Edge} (ha : a.meets .word = true) :
    run a (nameList between (n :: ns)) = some .word := by
  have hns : run .word (ns.flatMap fun m => [sign between, ident m]) = some .word :=
    run_flatMap fun m hm => run_solo hb (run_ident (hn m (List.mem_cons_of_mem _ hm)) rfl rfl)
  exact run_ident (hn n List.mem_cons_self) ha hns

theorem QualifiedName.run_piecesAfter (opening : Keyword) (q : QualifiedName)
    (hn : ∀ n ∈ q.segments, isWord n.text = true) :
    run .gap (q.piecesAfter opening ++ [Piece.newline]) = some .gap := by
  have hq : run .gap (nameList .dot q.segments) = some .word :=
    run_nameList rfl hn rfl
  exact run_append_some (run_word _ rfl (run_space (run_semicolon hq))) (run_newline rfl)

namespace ClassDecl

variable {c : ClassDecl}

theorem run_superclassPieces (hn : ∀ n ∈ c.superclass, isWord n.text = true) :
    run .word (superclassPieces c.superclass) = some .word := by
  cases hc : c.superclass with
  | none => rfl
  | some n => exact run_space (run_word _ rfl (run_space (run_ident (hn n (by simp [hc])) rfl rfl)))

theorem run_interfacePieces (hn : ∀ n ∈ c.interfaces, isWord n.text = true) :
    run .word (interfacePieces c.interfaces) = some .word := by
  cases hc : c.interfaces with
  | nil => rfl
  | cons n ns =>
    have hns : run .gap (nameList .comma (n :: ns)) = some .word :=
      run_nameList rfl (by rwa [← hc]) rfl
    exact run_space (run_word _ rfl (run_space hns))

theorem run_headPieces (hn : ∀ n ∈ c.names, isWord n.text = true) :
    run .gap c.headPieces = some .solo := by
  have hpackage : run .gap (c.package.toList.flatMap fun q =>
      q.packagePieces ++ [Piece.newline]) = some .gap :=
    run_flatMap fun q hq => q.run_piecesAfter _ fun n hm =>
      hn n (mem_names_iff.2 (.inl ⟨q, by simpa using hq, hm⟩))
  have himports : run .gap (c.imports.flatMap fun q =>
      q.importPieces ++ [Piece.newline]) = some .gap :=
    run_flatMap fun q hq => q.run_piecesAfter _ fun n hm =>
      hn n (mem_names_iff.2 (.inr (.inl ⟨q,hq,hm⟩)))
  obtain ⟨a, ha, ham⟩ := run_modifierList c.modifiers (a := .gap) rfl
  have hname : run a [word .«class», Piece.space, ident c.name] = some .word :=
    run_word _ ham (run_space (run_ident (hn _ (by simp [names])) rfl rfl))
  have hover : run .word (superclassPieces c.superclass) = some .word :=
    run_superclassPieces fun n hm => hn n (mem_names_iff.2 (.inr (.inr (.inr (.inl hm)))))
  have htypes : run .word (interfacePieces c.interfaces) = some .word :=
    run_interfacePieces fun n hm => hn n (mem_names_iff.2 (.inr (.inr (.inr (.inr (.inl hm))))))
  exact run_append_some (run_append_some (run_append_some (run_append_some (run_append_some
    (run_append_some hpackage himports) ha) hname) hover) htypes) (run_solo rfl rfl)

/-- No two pieces of a class are read together. -/
theorem run_pieces (hn : ∀ n ∈ c.names, isWord n.text = true) : run .gap c.pieces = some .solo := by
  have hfields : run .gap (c.fields.flatMap fun f => f.pieces ++ [Piece.newline]) = some .gap :=
    run_flatMap fun f hf => run_append_some
      (f.run_pieces fun n hm => hn n (mem_names_iff.2
        (.inr (.inr (.inr (.inr (.inr (.inl ⟨f,hf,hm⟩)))))))) (run_newline rfl)
  have hmethods : run .gap (c.methods.flatMap fun m => m.pieces ++ [Piece.newline]) = some .gap :=
    run_flatMap fun m hm => run_append_some
      (m.run_pieces fun n hn' => hn n (mem_names_iff.2
        (.inr (.inr (.inr (.inr (.inr (.inr ⟨m,hm,hn'⟩)))))))) (run_newline rfl)
  exact run_append_some (run_headPieces hn) (run_newline
    (run_append_some (run_append_some hfields hmethods) (run_solo rfl rfl)))

end ClassDecl
end ClassText
