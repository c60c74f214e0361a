import ClassText.Proofs.Grammar
import ClassText.Proofs.Reader.Primitive
import ClassText.Reader.Repetition

/-! What repeated and nested readers read. The bound on rounds and levels is the number of unread tokens
with compound symbols taken apart; it is never what ends them. -/
namespace ClassText

namespace Phrase

/-- Rounds of a phrase up to the first that gives nothing. -/
inductive Rounds (P : Phrase (Option α)) : Phrase (List α)
  | stop : P p none us → Rounds P p [] us
  | go : P p (some a) (q ++ us) → Rounds P q as us → Rounds P (p ++ q) (a :: as) us

/-- Rounds of a phrase, each on the result of the one before. -/
inductive Extends (P : α → Phrase (Option α)) : α → Phrase α
  | stop : P a p none us → Extends P a p a us
  | go : P a p (some b) (q ++ us) → Extends P b q c us → Extends P a (p ++ q) c us

/-- One more item behind the given token; nothing where the token is missing. -/
def behind (t : Token) (P : Phrase α) : Phrase (Option α)
  | p, some a, us => ∃ q, p = t :: q ∧ P q a us
  | p, none, us => p = [] ∧ us.head? ≠ some t

/-- What comes of an answer that may be missing. -/
def onAnswer (missing : Phrase β) (given : α → Phrase β) : Option α → Phrase β
  | none => missing
  | some a => given a

open Grammar

/-- Rounds of items behind a sign derive further items, provided that an item may end before the sign
and before what follows them all. -/
theorem rounds_behind_iff {P : Phrase α} {D : List Token → α → Prop} {E : α → List Token → Prop}
    {sign : Symbol} {us : List Token} (hP : ∀ p a vs, P p a vs ↔ D p a ∧ E a vs)
    (hsign : ∀ a vs, E a (.symbol sign :: vs)) (hus : ∀ a, E a us)
    (hn : us.head? ≠ some (.symbol sign)) {p : List Token} {as : List α} :
    Rounds (behind (.symbol sign) P) p as us ↔ Further D sign p as := by
  constructor
  · intro h
    induction h with
    | stop h =>
      obtain ⟨rfl, -⟩ := h
      exact .nil
    | go h _ ih =>
      obtain ⟨q, rfl, hq⟩ := h
      exact .cons ((hP _ _ _).1 hq).1 (ih hus hn)
  · intro h
    induction h with
    | nil => exact .stop ⟨rfl,hn⟩
    | @cons p a q as hp hq ih =>
      have he : E a (q ++ us) := by
        cases hq with
        | nil => exact hus a
        | cons => exact hsign a _
      exact .go (p := .symbol sign :: p) ⟨p, rfl, (hP _ _ _).2 ⟨hp,he⟩⟩ ih

/-- Rounds of items derive a sequence of them, and then whatever ends the rounds. -/
theorem rounds_iff {P : Phrase (Option α)} {D : List Token → α → Prop}
    {us : List Token} (hP : ∀ p a vs, P p (some a) vs ↔ D p a) {p : List Token} {as : List α} :
    Rounds P p as us ↔ ∃ q r, p = q ++ r ∧ Sequence D q as ∧ P r none us := by
  constructor
  · intro h
    induction h with
    | @stop p us h => exact ⟨[], p, rfl, .nil, h⟩
    | @go p a q us as h _ ih =>
      obtain ⟨q, r, rfl, hq, hr⟩ := ih
      exact ⟨p ++ q, r, (List.append_assoc ..).symm, .cons ((hP _ _ _).1 h) hq, hr⟩
  · rintro ⟨q, r, rfl, hq, hr⟩
    induction hq with
    | nil => exact .stop hr
    | cons hp _ ih =>
      rw [List.append_assoc]
      exact .go ((hP _ _ _).2 hp) ih

end Phrase

namespace Reader.Reads

variable {s : Reading}

theorem collectWithin {step : Reader (Option α)} {P : Phrase (Option α)} {n : Nat}
    (hs : s.Visible) (hn : s.unread.length < n)
    (hstep : ∀ t, t.Visible → t.unread.length ≤ s.unread.length → Reads step t P)
    (hP : ∀ p a us, P p (some a) us → p ≠ []) : Reads (collectWithin step n) s (Phrase.Rounds P) := by
  induction n generalizing s with
  | zero => omega
  | succ n ih =>
    let Q : Option α → Phrase (List α) := Phrase.onAnswer (fun p as _ => p = [] ∧ as = [])
      fun a p bs us => ∃ as, Phrase.Rounds P p as us ∧ bs = a :: as
    refine ((hstep s hs (Nat.le_refl _)).bind (Q := Q) ?_).congr ?_
    · intro o p t ht hp hPo
      cases o with
      | none => exact pure ht []
      | some a =>
        have hne := List.length_pos_iff.2 (hP p a _ hPo)
        have hlen : t.unread.length < s.unread.length := by rw [hp, List.length_append]; omega
        exact (ih ht (by omega) fun u hu hle => hstep u hu (by omega)).bind_pure (a :: ·)
    · intro p as us _
      constructor
      · rintro ⟨q, r, o, rfl, hq, hr⟩
        cases o with
        | none =>
          obtain ⟨rfl, rfl⟩ := hr
          rw [List.append_nil]
          exact .stop hq
        | some a =>
          obtain ⟨as, hr, rfl⟩ := hr
          exact .go hq hr
      · rintro (hp | ⟨hp, hq⟩)
        · exact ⟨p, [], none, (List.append_nil p).symm, hp, rfl, rfl⟩
        · exact ⟨_, _, some _, rfl, hp, _, hq, rfl⟩

theorem collect {step : Reader (Option α)} {P : Phrase (Option α)} (hs : s.Visible)
    (hstep : ∀ t, t.Visible → t.unread.length ≤ s.unread.length → Reads step t P)
    (hP : ∀ p a us, P p (some a) us → p ≠ []) : Reads (collect step) s (Phrase.Rounds P) :=
  (collectWithin hs (Nat.lt_succ_self _) hstep hP).of_run_eq rfl

theorem extendWithin {step : α → Reader (Option α)} {P : α → Phrase (Option α)} {n : Nat}
    (hs : s.Visible) (hn : s.unread.length < n)
    (hstep : ∀ a t, t.Visible → t.unread.length ≤ s.unread.length → Reads (step a) t (P a))
    (hP : ∀ a p b us, P a p (some b) us → p ≠ []) (a : α) :
    Reads (extendWithin step n a) s (Phrase.Extends P a) := by
  induction n generalizing s a with
  | zero => omega
  | succ n ih =>
    let Q : Option α → Phrase α :=
      Phrase.onAnswer (fun p b _ => p = [] ∧ b = a) (Phrase.Extends P)
    refine ((hstep a s hs (Nat.le_refl _)).bind (Q := Q) ?_).congr ?_
    · intro o p t ht hp hPo
      cases o with
      | none => exact pure ht a
      | some b =>
        have hne := List.length_pos_iff.2 (hP a p b _ hPo)
        have hlen : t.unread.length < s.unread.length := by rw [hp, List.length_append]; omega
        exact ih ht (by omega) (fun c u hu hle => hstep c u hu (by omega)) b
    · intro p c us _
      constructor
      · rintro ⟨q, r, o, rfl, hq, hr⟩
        cases o with
        | none =>
          obtain ⟨rfl, rfl⟩ := hr
          rw [List.append_nil]
          exact .stop hq
        | some b => exact .go hq hr
      · rintro (hp | ⟨hp, hq⟩)
        · exact ⟨p, [], none, (List.append_nil p).symm, hp, rfl, rfl⟩
        · exact ⟨_, _, some _, rfl, hp, hq⟩

theorem extend {step : α → Reader (Option α)} {P : α → Phrase (Option α)} (hs : s.Visible)
    (hstep : ∀ a t, t.Visible → t.unread.length ≤ s.unread.length → Reads (step a) t (P a))
    (hP : ∀ a p b us, P a p (some b) us → p ≠ []) (a : α) :
    Reads (extend step a) s (Phrase.Extends P a) :=
  (extendWithin hs (Nat.lt_succ_self _) hstep hP a).of_run_eq rfl

/-- An item behind a token that is there, and nothing where it is missing. -/
theorem oneBehind {t : Token} {item : Reader α} {P : Phrase α} (ht : t.Plain) (hs : s.Visible)
    (hitem : ∀ u, u.Visible → s.unread = t :: u.unread → Reads item u P) :
    Reads (do if ← Reader.accept t then return some (← item) else return none) s
      (Phrase.behind t P) := by
  refine (ifAccept hs ht (fun u hu hsu => (hitem u hu hsu).bind_pure some)
    fun u hu _ _ => pure hu none).congr fun p o us _ => ?_
  cases o with
  | none =>
    constructor
    · rintro (⟨q, rfl, _, _, h⟩ | ⟨hn, rfl, -⟩)
      · cases h
      · exact ⟨rfl,hn⟩
    · rintro ⟨rfl, hn⟩
      exact .inr ⟨hn,rfl,rfl⟩
  | some a =>
    constructor
    · rintro (⟨q, rfl, b, hq, h⟩ | ⟨_, _, h⟩)
      · cases h
        exact ⟨q, rfl, hq⟩
      · cases h
    · rintro ⟨q, rfl, hq⟩
      exact .inl ⟨q, rfl, a, hq, rfl⟩

theorem eachBehind {t : Token} {item : Reader α} {P : Phrase α} (ht : t.Plain) (hs : s.Visible)
    (hitem : ∀ u, u.Visible → u.unread.length < s.unread.length → Reads item u P) :
    Reads (eachBehind t item) s (Phrase.Rounds (Phrase.behind t P)) := by
  refine collect hs ?_ ?_
  · refine fun u hu hle => oneBehind ht hu fun v hv huv => hitem v hv ?_
    simp only [huv, List.length_cons] at hle
    omega
  · rintro p a us ⟨q, rfl, -⟩
    exact List.cons_ne_nil _ _

theorem nestedWithin {ended : Reader α} {body : Reader α → Reader α} {P : Phrase α} {n : Nat}
    (hended : ∀ t, t.Visible → t.unread = [] → Reads ended t P)
    (hbody : ∀ r t, t.Visible → (∀ u, u.Visible → u.unread.length < t.unread.length → Reads r u P) →
      Reads (body r) t P)
    (hs : s.Visible) (hn : s.unread.length ≤ n) : Reads (nestedWithin ended body n) s P := by
  induction n generalizing s with
  | zero => exact hended s hs (List.length_eq_zero_iff.1 (by omega))
  | succ n ih => exact hbody _ s hs fun u hu hlt => ih hu (by omega)

/-- A nested reader reads a phrase if its body does, given a reader for it on fewer tokens. -/
theorem nested {ended : Reader α} {body : Reader α → Reader α} {P : Phrase α}
    (hended : ∀ t, t.Visible → t.unread = [] → Reads ended t P)
    (hbody : ∀ r t, t.Visible → (∀ u, u.Visible → u.unread.length < t.unread.length → Reads r u P) →
      Reads (body r) t P)
    (hs : s.Visible) : Reads (nested ended body) s P :=
  (nestedWithin hended hbody hs (Nat.le_refl _)).of_run_eq rfl

end Reader.Reads
end ClassText
