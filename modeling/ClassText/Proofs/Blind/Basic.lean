import ClassText.Proofs.Reader.Phrase

/-! Readers that do not look at places. Two readings of the same tokens may differ in where the tokens
stand. A reader is blind if from any two such readings it comes to the same: to the same result, or to
errors that differ in their places only, and in both cases to readings of the same tokens again. -/
namespace ClassText

/-- The error without its place. -/
def SyntaxError.unplaced : SyntaxError → SyntaxError
  | .unexpectedToken expected found _ _ => .unexpectedToken expected found .origin ⟨0, 0⟩
  | .tooFewTokens context _ => .tooFewTokens context ⟨0, 0⟩
  | .ambiguousStatement _ _ => .ambiguousStatement .origin ⟨0, 0⟩

def Stop.unplaced : Stop → Stop
  | .rejected e => .rejected e.unplaced
  | .broken f => .broken f

namespace Reading

/-- The same tokens are behind and ahead, and the same milestones are passed, but places may differ. -/
structure Same (s t : Reading) : Prop where
  behind : s.cursor.behind.map (·.token) = t.cursor.behind.map (·.token)
  ahead : s.cursor.ahead.map (·.token) = t.cursor.ahead.map (·.token)
  milestones : s.milestones = t.milestones

namespace Same

variable {s t : Reading}

theorem ofTokens {ls ms : List Located} (h : ls.map (·.token) = ms.map (·.token)) :
    (Reading.ofTokens ls).Same (.ofTokens ms) := ⟨rfl, h, rfl⟩

theorem unread (h : s.Same t) : s.unread = t.unread := congrArg Token.expand h.ahead

theorem peek? (h : s.Same t) (n : Nat) : s.cursor.peek? n = t.cursor.peek? n := by
  have hn := congrArg (·[n]?) h.ahead
  simpa [TokenCursor.peek?, TokenCursor.get?] using hn

/-- Where there is a token on the one side, there is the same on the other. -/
theorem get?_cases (h : s.Same t) (n : Nat) :
    (s.cursor.get? n = none ∧ t.cursor.get? n = none) ∨
      ∃ l m, s.cursor.get? n = some l ∧ t.cursor.get? n = some m ∧ l.token = m.token := by
  have hn := h.peek? n
  unfold TokenCursor.peek? at hn
  cases hs : s.cursor.get? n with
  | none =>
    rw [hs, Option.map_none, eq_comm, Option.map_eq_none_iff] at hn
    exact .inl ⟨rfl, hn⟩
  | some l =>
    rw [hs, Option.map_some, eq_comm, Option.map_eq_some_iff] at hn
    obtain ⟨m, hm, hml⟩ := hn
    exact .inr ⟨l, m, rfl, hm, hml.symm⟩

theorem consumed (h : s.Same t) (n : Nat) : s.cursor.consumed n = t.cursor.consumed n := by
  simp only [TokenCursor.consumed, List.map_take, h.behind]

theorem advance (h : s.Same t) : s.advance.Same t.advance := by
  obtain ⟨⟨b, ls⟩, ms⟩ := s
  obtain ⟨⟨c, ks⟩, ns⟩ := t
  obtain ⟨hb, ha, hm⟩ := h
  cases ls with
  | nil =>
    cases ks with
    | nil => exact ⟨hb, rfl, hm⟩
    | cons k ks => cases ha
  | cons l ls =>
    cases ks with
    | nil => cases ha
    | cons k ks =>
      obtain ⟨hl, hls⟩ := List.cons.inj ha
      exact ⟨congrArg₂ List.cons hl hb, hls, hm⟩

end Same
end Reading

namespace Reader

variable {α β : Type} {s t : Reading}

/-- The same result, or the same error but for its place, and then readings of the same tokens. -/
def SameResult : EStateM.Result Stop Reading α → EStateM.Result Stop Reading α → Prop
  | .ok a s, .ok b t => a = b ∧ s.Same t
  | .error e s, .error f t => e.unplaced = f.unplaced ∧ s.Same t
  | _, _ => False

/-- From `s` the one reader comes to the same as the other does from `t`. -/
def Alike (r r' : Reader α) (s t : Reading) : Prop := SameResult (r.run s) (r'.run t)

/-- A reader for which it makes no difference where the tokens stand. -/
def Blind (r : Reader α) : Prop := ∀ s t : Reading, s.Same t → Alike r r s t

namespace Alike

theorem of_run_eq {r₁ r₁' r₂ r₂' : Reader α} (h : Alike r₂ r₂' s t) (hr : r₁.run s = r₂.run s)
    (hr' : r₁'.run t = r₂'.run t) : Alike r₁ r₁' s t := by
  unfold Alike
  rw [hr, hr']
  exact h

theorem bind_get {f f' : Reading → Reader α} (h : Alike (f s) (f' t) s t) :
    Alike (get >>= f) (get >>= f') s t :=
  h.of_run_eq rfl rfl

/-- Both give the same result, or both fail with the same error but for its place. -/
theorem cases {r r' : Reader α} (h : Alike r r' s t) :
    (∃ a u v, r.run s = .ok a u ∧ r'.run t = .ok a v ∧ u.Same v) ∨
      ∃ e f u v, r.run s = .error e u ∧ r'.run t = .error f v ∧ e.unplaced = f.unplaced ∧ u.Same v := by
  unfold Alike at h
  cases hr : r.run s with
  | ok a u =>
    cases hr' : r'.run t with
    | ok b v =>
      rw [hr, hr'] at h
      obtain ⟨rfl, huv⟩ := h
      exact .inl ⟨a, u, v, rfl, rfl, huv⟩
    | error f v =>
      rw [hr, hr'] at h
      exact h.elim
  | error e u =>
    cases hr' : r'.run t with
    | ok b v =>
      rw [hr, hr'] at h
      exact h.elim
    | error f v =>
      rw [hr, hr'] at h
      exact .inr ⟨e, f, u, v, rfl, rfl, h⟩

theorem bind {x x' : Reader α} {f f' : α → Reader β} (hx : Alike x x' s t)
    (hf : ∀ a u v, u.Same v → Alike (f a) (f' a) u v) : Alike (x >>= f) (x' >>= f') s t := by
  unfold Alike
  rw [run_bind, run_bind]
  obtain ⟨a, u, v, hr, hr', huv⟩ | ⟨e, e', u, v, hr, hr', he, huv⟩ := hx.cases
  · rw [hr, hr']
    exact hf a u v huv
  · rw [hr, hr']
    exact ⟨he, huv⟩

end Alike

namespace Blind

theorem pure (a : α) : Blind (pure a) := fun _ _ h => ⟨rfl, h⟩

theorem bind {x : Reader α} {f : α → Reader β} (hx : Blind x) (hf : ∀ a, Blind (f a)) :
    Blind (x >>= f) := fun s t h => (hx s t h).bind fun a u v huv => hf a u v huv

/-! The single steps of readers. -/

theorem peek? (n : Nat) : Blind (peek? n) := fun _ _ h => ⟨h.peek? n, h⟩

theorem skip : Blind skip := fun _ _ h => ⟨rfl, h.advance⟩

theorem record (m : Milestone) : Blind (record m) := fun _ _ h =>
  ⟨rfl, h.behind, h.ahead, congrArg (List.cons m) h.milestones⟩

theorem build (made : Except Fault α) : Blind (build made) := by
  cases made with
  | ok a => exact pure a
  | error f => exact fun _ _ h => ⟨rfl, h⟩

/-- What is missing at the end is told with the place of the end. -/
theorem tooFew (xs : List Expected) : Blind (tooFew xs : Reader α) := fun _ _ h => ⟨rfl, h⟩

theorem tooFewInBody : Blind (tooFewInBody : Reader α) := fun s t h => by
  refine ⟨?_, h⟩
  have hlast := h.consumed lastTokenCount
  simp only [Stop.unplaced, SyntaxError.unplaced, hlast]

/-- The token that is refused is told with its place. -/
theorem unexpected (x : Expected) : Blind (unexpected x : Reader α) := fun s t h => by
  apply Alike.bind_get
  obtain ⟨hs, ht⟩ | ⟨l, m, hs, ht, hlm⟩ := h.get?_cases 0
  · rw [hs, ht]
    exact tooFew [x] s t h
  · rw [hs, ht]
    refine ⟨?_, h⟩
    simp only [Stop.unplaced, SyntaxError.unplaced, hlm]

theorem splitCurrent (left : Token) : Blind (splitCurrent left) := fun s t h => by
  obtain ⟨⟨b, ls⟩, ms⟩ := s
  obtain ⟨⟨c, ks⟩, ns⟩ := t
  obtain ⟨hb, ha, hm⟩ := h
  cases ls with
  | nil =>
    cases ks with
    | nil => exact ⟨rfl, hb, rfl, hm⟩
    | cons k ks => cases ha
  | cons l ls =>
    cases ks with
    | nil => cases ha
    | cons k ks => exact ⟨rfl, hb, congrArg (List.cons left) (List.cons.inj ha).2, hm⟩

end Blind
end Reader
end ClassText
