import ClassText.Proofs.Blind.Basic
import ClassText.Proofs.Reader.Closure

/-! All readers are blind to the places of tokens, since their single steps are and what is put together
from blind readers is blind. -/
namespace ClassText.Reader

namespace Blind

variable {α : Type}

/-- The number of unread tokens is the same on both sides. -/
theorem bounded {f : Nat → Reader α} (h : ∀ n, Blind (f n)) :
    Blind (do f (← get).unread.length) := fun s t hst => by
  apply Alike.bind_get
  rw [hst.unread]
  exact h _ s t hst

theorem closingAngle (hexpect : Blind (expect (.symbol .gt))) : Blind closingAngle := by
  refine (peek? 0).bind fun o => ?_
  cases o with
  | none => exact hexpect
  | some t =>
    cases t with
    | symbol x =>
      dsimp only
      cases x.afterAngle? with
      | none => exact hexpect
      | some left => exact splitCurrent _
    | _ => exact hexpect

section Chains

variable (hassign : Blind (expect (.symbol .assign))) (hsemicolon : Blind (expect (.symbol .semicolon)))
  (hexpression : Blind expression)
include hassign hsemicolon hexpression

/-- The token that a chain begins with is shown by its place only. -/
theorem afterChain (l m : Located) (e : Expr) (s t : Reading) (h : s.Same t) :
    Alike (afterChain l e) (afterChain m e) s t := by
  cases e with
  | field base name =>
    exact (hassign.bind fun _ => hexpression.bind fun _ => hsemicolon.bind fun _ => pure _) s t h
  | call base name given => exact (hsemicolon.bind fun _ => pure _) s t h
  | _ => exact ⟨rfl, h⟩

theorem chainStatement (hchain : Blind (chain expression)) : Blind chainStatement := fun s t h => by
  apply Alike.bind_get
  obtain ⟨hs, ht⟩ | ⟨l, m, hs, ht, -⟩ := h.get?_cases 0
  · rw [hs, ht]
    exact tooFew _ s t h
  · rw [hs, ht]
    exact (hchain s t h).bind (afterChain hassign hsemicolon hexpression l m)

end Chains
end Blind

theorem closed_blind : Closed fun _ r => Blind r where
  pure := .pure
  bind := .bind
  bounded := .bounded
  peek? := .peek?
  skip := .skip
  record := .record
  build := .build
  tooFew := .tooFew
  tooFewInBody := .tooFewInBody
  unexpected := .unexpected
  splitting := .closingAngle
  chainStatement hchain hexpression hassign hsemicolon :=
    .chainStatement hassign hsemicolon hexpression hchain

end ClassText.Reader
