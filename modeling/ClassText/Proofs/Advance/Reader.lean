import ClassText.Proofs.Advance.Frame
import ClassText.Proofs.Reader.Agreement
import ClassText.Proofs.Reader.Closure
import ClassText.Proofs.Reader.Primitive

/-! Readers only go forward. From wherever one starts it ends at a reading that lies ahead, whether it
gives a result or stops in the middle. -/
namespace ClassText

/-- The reading `t` lies ahead of `s`, or is no other. The cursor has only gone forward, and no more tokens
are unread. -/
structure Reading.Onward (s t : Reading) : Prop where
  frame : s.cursor.Frame t.cursor
  length_le : t.unread.length ≤ s.unread.length

namespace Reading.Onward

variable {s t u : Reading}

theorem of_cursor_eq (h : t.cursor = s.cursor) : s.Onward t where
  frame := h ▸ .refl _
  length_le := Nat.le_of_eq (by rw [unread, unread, h])

theorem refl (s : Reading) : s.Onward s := of_cursor_eq rfl

theorem trans (h : s.Onward t) (h' : t.Onward u) : s.Onward u where
  frame := h.frame.trans h'.frame
  length_le := Nat.le_trans h'.length_le h.length_le

theorem advance (s : Reading) : s.Onward s.advance where
  frame := s.cursor.frame_advance
  length_le := s.length_advance_le

end Reading.Onward

namespace Reader

variable {α β : Type} {s t : Reading}

/-- Where a reader ends that starts at `s`, be it with a result or without. -/
def ending (r : Reader α) (s : Reading) : Reading :=
  match r.run s with
  | .ok _ t => t
  | .error _ t => t

theorem ending_of_ok {r : Reader α} {a : α} (h : r.run s = .ok a t) : r.ending s = t := by
  rw [ending, h]

theorem ending_of_error {r : Reader α} {e : Stop} (h : r.run s = .error e t) : r.ending s = t := by
  rw [ending, h]

/-- Wherever the reader starts, it ends there or ahead. -/
def Onward (r : Reader α) : Prop := ∀ s : Reading, s.Onward (r.ending s)

namespace Onward

theorem of_ok {r : Reader α} {a : α} (h : Onward r) (hr : r.run s = .ok a t) : s.Onward t :=
  ending_of_ok hr ▸ h s

theorem of_error {r : Reader α} {e : Stop} (h : Onward r) (hr : r.run s = .error e t) : s.Onward t :=
  ending_of_error hr ▸ h s

theorem forward {r : Reader α} (h : Onward r) : Forward r := fun _ _ _ hr => (h.of_ok hr).length_le

/-- What stays where it starts. -/
theorem of_still {r : Reader α} (h : ∀ s, (r.ending s).cursor = s.cursor) : Onward r :=
  fun s => .of_cursor_eq (h s)

theorem pure (a : α) : Onward (pure a) := of_still fun _ => rfl

theorem bind {x : Reader α} {f : α → Reader β} (hx : Onward x) (hf : ∀ a, Onward (f a)) :
    Onward (x >>= f) := fun s => by
  cases hr : x.run s with
  | ok a u =>
    have he : (x >>= f).ending s = (f a).ending u := by rw [ending, run_bind, hr]; rfl
    rw [he]
    exact (hx.of_ok hr).trans (hf a u)
  | error e u =>
    rw [ending_of_error (by rw [run_bind, hr])]
    exact hx.of_error hr

theorem build (made : Except Fault α) : Onward (build made) := of_still fun s => by
  cases made <;> rfl

theorem refuse (expected : Expected) (found : Option Located) :
    Onward (refuse expected found : Reader α) := of_still fun s => by
  cases found <;> rfl

theorem unexpected (expected : Expected) : Onward (unexpected expected : Reader α) := fun s =>
  refuse expected (s.cursor.get? 0) s

/-- A compound symbol gives way to what is left of it, and any other token is passed as a whole. -/
theorem closingAngle (hexpect : Onward (expect (.symbol .gt))) : Onward closingAngle := fun s => by
  have hr (f : Option Token → Reader Unit) :
      (current? >>= f).ending s = (f (s.cursor.peek? 0)).ending s := rfl
  unfold Reader.closingAngle
  rw [hr, TokenCursor.peek?_zero]
  cases ha : s.cursor.ahead with
  | nil => exact hexpect s
  | cons l ls =>
    simp only [List.map_cons, List.head?_cons]
    cases hl : l.token with
    | symbol x =>
      dsimp only
      cases hx : x.afterAngle? with
      | none => exact hexpect s
      | some left =>
        rw [ending_of_ok (Reads.run_splitCurrent ha _)]
        refine ⟨?_, ?_⟩
        · have hs : s.cursor = ⟨s.cursor.behind, l :: ls⟩ := by rw [← ha]
          rw [hs]
          exact TokenCursor.frame_splitTo hl hx
        · simp [Reading.unread, ha, hl, Token.parts, Symbol.parts_of_afterAngle? hx]
    | _ => exact hexpect s

section Chains

variable (hassign : Onward (expect (.symbol .assign))) (hsemicolon : Onward (expect (.symbol .semicolon)))
  (hexpression : Onward expression)
include hassign hsemicolon hexpression

theorem afterChain (l : Located) (e : Expr) : Onward (afterChain l e) := by
  cases e with
  | field base name =>
    exact hassign.bind fun _ => hexpression.bind fun _ => hsemicolon.bind fun _ => pure _
  | call base name given => exact hsemicolon.bind fun _ => pure _
  | _ => exact of_still fun _ => rfl

theorem chainStatement (hchain : Onward (chain expression)) : Onward chainStatement := fun s => by
  have hr (f : Reading → Reader Statement) : (get >>= f).ending s = (f s).ending s := rfl
  unfold Reader.chainStatement
  rw [hr]
  cases s.cursor.get? 0 with
  | none => exact .refl s
  | some l => exact hchain.bind (afterChain hassign hsemicolon hexpression l) s

end Chains
end Onward

theorem closed_onward : Closed fun _ r => Onward r where
  pure := .pure
  bind := .bind
  bounded h s := h s.unread.length s
  peek? _ := .of_still fun _ => rfl
  skip := .advance
  record _ := .of_still fun _ => rfl
  build := .build
  tooFew _ := .of_still fun _ => rfl
  tooFewInBody := .of_still fun _ => rfl
  unexpected := .unexpected
  splitting := .closingAngle
  chainStatement hchain hexpression hassign hsemicolon :=
    .chainStatement hassign hsemicolon hexpression hchain

section Types

variable {argument argument' : Reader TypeExpr} {n : Nat}

/-- A type that begins with a name takes the name before it asks for its arguments. -/
theorem Agrees.namedType (hs : s.unread.length ≤ n + 1)
    (ih : ∀ u, u.unread.length ≤ n → Agrees n argument argument' u) :
    Agrees n (namedType argument) (namedType argument') s := by
  refine (identifier hs _).bind fun name u hu => (accept hu _).bind fun there v hv => ?_
  cases there with
  | true =>
    exact (ih v hv).bind fun first _ hw => (eachBehind ih _ hw).bind fun others w hw =>
      (closed_onward.closingAngle.forward.agrees n w hw).bind fun _ _ hx => build hx _
  | false => exact build hv _

theorem run_typeBody_ended (hs : s.unread = []) :
    (typeBody argument).run s = (tooFew [.type]).run s := by
  have he : (elementType argument).run s = (tooFew [.type]).run s := by
    unfold elementType
    rw [run_bind_current, s.peek?_zero_eq_none_iff.2 hs]
  unfold typeBody
  rw [run_bind, he]
  rfl

theorem guarded_typeBody : Guarded (tooFew [.type]) typeBody where
  ended _ _ hs := (Agrees.tooFew _).of_run_eq rfl (run_typeBody_ended hs)
  agrees hs ih := Agrees.typeWith hs (Agrees.namedType hs ih)

theorem typeExpr_eq : typeExpr = typeBody typeExpr := guarded_typeBody.nested_eq

end Types

end Reader
end ClassText
