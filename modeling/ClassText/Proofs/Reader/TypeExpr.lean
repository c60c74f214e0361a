import ClassText.Proofs.Reader.Repetition
import ClassText.Reader.TypeExpr

/-! The reader of types reads exactly the types of the grammar, as far as their brackets reach. -/
namespace ClassText

open Grammar

namespace TypeExpr

/-- Whether the type is a bare name, which arguments might follow. -/
def isReference : TypeExpr → Bool
  | .reference _ => true
  | _ => false

/-- Nothing that follows belongs to the type any more. -/
def EndsBefore (t : TypeExpr) (us : List Token) : Prop :=
  us.head? ≠ some (.symbol .leftBracket) ∧
    (t.isReference → us.head? ≠ some (.symbol .lt))

theorem endsBefore_of_head? (t : TypeExpr) {us : List Token} {u : Token}
    (h : us.head? = some u) (h₁ : u ≠ .symbol .leftBracket) (h₂ : u ≠ .symbol .lt) :
    t.EndsBefore us := by
  simp [EndsBefore, h, h₁, h₂]

end TypeExpr

namespace Phrase

def type : Phrase TypeExpr := fun p t us => DerivesType p t ∧ t.EndsBefore us

/-- A type without its array brackets. -/
def element : Phrase TypeExpr := fun p t us =>
  DerivesType p t ∧ (∀ e, t ≠ .array e) ∧ (t.isReference → us.head? ≠ some (.symbol .lt))

/-- One more pair of array brackets. -/
def brackets (e : TypeExpr) : Phrase (Option TypeExpr)
  | p, some t, _ => p = [.symbol .leftBracket, .symbol .rightBracket] ∧ t = .array e
  | p, none, us => p = [] ∧ us.head? ≠ some (.symbol .leftBracket)

theorem Extends.type {e t : TypeExpr} {p q us : List Token} (h : Extends brackets e p t us)
    (hq : DerivesType q e) (he : e.isReference → (p ++ us).head? ≠ some (.symbol .lt)) :
    type (q ++ p) t us := by
  induction h generalizing q with
  | stop h =>
    obtain ⟨rfl, hn⟩ := h
    rw [List.append_nil]
    exact ⟨hq,hn,he⟩
  | go h _ ih =>
    obtain ⟨rfl, rfl⟩ := h
    rw [← List.append_assoc]
    exact ih (.array hq) (by simp [TypeExpr.isReference])

/-- Brackets that the grammar puts around a type, the innermost first, are read from left to right. -/
theorem Extends.of_type : (e : TypeExpr) → {p r us : List Token} → {t : TypeExpr} →
    DerivesType p e → (e.isReference → (r ++ us).head? ≠ some (.symbol .lt)) →
    Extends brackets e r t us →
    ∃ q f m, p ++ r = q ++ m ∧ element q f (m ++ us) ∧ Extends brackets f m t us
  | .array e, p, r, us, t, hp, _, hr => by
    cases hp with
    | array hp =>
      rw [List.append_assoc]
      exact of_type e hp (by simp) (.go ⟨rfl,rfl⟩ hr)
  | .primitive _, p, r, us, t, hp, he, hr => ⟨p, _, r, rfl, ⟨hp, by simp, he⟩, hr⟩
  | .reference _, p, r, us, t, hp, he, hr => ⟨p, _, r, rfl, ⟨hp, by simp, he⟩, hr⟩
  | .generic _ _ _, p, r, us, t, hp, he, hr => ⟨p, _, r, rfl, ⟨hp, by simp, he⟩, hr⟩

theorem type_iff {p : List Token} {t : TypeExpr} {us : List Token} :
    element.andThen (Extends brackets) p t us ↔ type p t us := by
  constructor
  · rintro ⟨q, r, e, rfl, ⟨hq, _, he⟩, hr⟩
    exact hr.type hq he
  · rintro ⟨hp, ht⟩
    obtain ⟨q, e, m, hpm, hq, hm⟩ := Extends.of_type t (r := []) hp ht.2 (.stop ⟨rfl,ht.1⟩)
    exact ⟨q, m, e, by rw [← hpm, List.append_nil], hq, hm⟩

/-- Type arguments behind a first one, up to the closing angle. -/
theorem further_type_iff {p us : List Token} {ts : List TypeExpr} :
    Rounds (behind (.symbol .comma) type) p ts (.symbol .gt :: us) ↔
      Further DerivesType .comma p ts :=
  rounds_behind_iff (fun _ _ _ => Iff.rfl)
    (fun t _ => t.endsBefore_of_head? rfl (by simp) (by simp))
    (fun t => t.endsBefore_of_head? rfl (by simp) (by simp)) (by simp)

/-- A name, and its arguments where an opening angle follows. -/
def namedType : Phrase TypeExpr := fun p t us =>
  (∃ n : Name, p = [.identifier n.text] ∧ t = .reference n ∧ us.head? ≠ some (.symbol .lt)) ∨
  ∃ (n : Name) (q r : List Token) (first : TypeExpr) (others : List TypeExpr),
    p = .identifier n.text :: .symbol .lt :: (q ++ r ++ [.symbol .gt]) ∧ DerivesType q first ∧
      Further DerivesType .comma r others ∧ t = .generic n first others

/-- The tokens with which a type may begin. -/
def BeginsType (t : Token) : Prop :=
  (∃ name, t = .identifier name) ∨ ∃ k : Primitive, t = .keyword k.keyword

theorem begins_of_type {p : List Token} {t : TypeExpr} (h : DerivesType p t) :
    ∃ c q, p = c :: q ∧ BeginsType c := by
  match t, h with
  | _, .primitive k => exact ⟨_, _, rfl, .inr ⟨k,rfl⟩⟩
  | _, .reference n => exact ⟨_, _, rfl, .inl ⟨_,rfl⟩⟩
  | _, .generic n _ _ => exact ⟨_, _, rfl, .inl ⟨_,rfl⟩⟩
  | .array e, .array he =>
    obtain ⟨c, q, rfl, hc⟩ := begins_of_type he
    exact ⟨c, _, rfl, hc⟩

theorem head?_ne_of_type {p us : List Token} {t : TypeExpr} (h : DerivesType p t) {k : Keyword}
    (hk : ∀ kind : Primitive, kind.keyword ≠ k) : (p ++ us).head? ≠ some (.keyword k) := by
  obtain ⟨c, q, rfl, ⟨name, rfl⟩ | ⟨kind, rfl⟩⟩ := begins_of_type h
  · simp
  · simpa using hk kind

end Phrase

namespace Reader.Reads

variable {s : Reading} {argument : Reader TypeExpr}

theorem arrayBrackets (hs : s.Visible) (e : TypeExpr) :
    Reads (arrayBrackets e) s (Phrase.brackets e) := by
  refine (ifAccept hs (by decide) (fun u hu _ => bind_expect hu (by decide) fun v hv _ =>
    pure hv (some (TypeExpr.array e))) fun u hu _ _ => pure hu none).congr fun p o us _ => ?_
  cases o with
  | some t => simp [Phrase.brackets, Phrase.after]
  | none =>
    constructor
    · rintro (⟨_, _, _, _, _, h⟩ | ⟨hn, rfl, -⟩)
      · cases h
      · exact ⟨rfl,hn⟩
    · rintro ⟨rfl, hn⟩
      exact .inr ⟨hn,rfl,rfl⟩

theorem namedType (hs : s.Visible)
    (ih : ∀ u, u.Visible → u.unread.length < s.unread.length → Reads argument u Phrase.type) :
    Reads (namedType argument) s Phrase.namedType := by
  refine (bind_identifier hs fun name u hu hsu hx =>
    have hlen : u.unread.length < s.unread.length := by simp [hsu]
    ifAccept hu (by decide)
      (fun v hv hvu => (ih v hv (by simp [hvu] at hlen; omega)).bind fun first q w hw hq _ =>
        (eachBehind (by decide) hw fun x hx' hxw => ih x hx' (by simp [hvu, hq] at hlen; omega)).bind
          fun others _ y hy _ _ => bind_token (closingAngle hy) fun z hz _ =>
            build_named hz hx (fun n => TypeExpr.generic n first others)
              (by simp [TypeExpr.checkGeneric, Name.check, hx]))
      fun v hv _ _ => build_named hv hx TypeExpr.reference
        (by simp [TypeExpr.checkReference, Name.check, hx])).congr fun p t us _ => ?_
  constructor
  · rintro ⟨_, _, rfl, ⟨_, rfl, q, _, first, rfl, ⟨hq, -⟩, r, _, others, rfl, hr, _, rfl, rfl, n,
      rfl, rfl⟩ | ⟨hn, rfl, n, rfl, rfl⟩⟩
    · exact .inr ⟨n, q, r, first, others, by simp, hq, Phrase.further_type_iff.1 hr, rfl⟩
    · exact .inl ⟨n, rfl, rfl, hn⟩
  · rintro (⟨n, rfl, rfl, hn⟩ | ⟨n, q, r, first, others, rfl, hq, hr, rfl⟩)
    · exact ⟨n.text, [], rfl, .inr ⟨hn, rfl, n, rfl, rfl⟩⟩
    · have hfirst : first.EndsBefore (r ++ .symbol .gt :: us) := by
        cases hr <;> exact first.endsBefore_of_head? rfl (by simp) (by simp)
      exact ⟨n.text, _, rfl, .inl ⟨_, rfl, q, _, first, List.append_assoc ..,
        ⟨hq, by simpa using hfirst⟩, r, _, others, rfl, Phrase.further_type_iff.2 hr,
        [], rfl, rfl, n, rfl, rfl⟩⟩

/-- Whatever the grammar allows as a type begins with the current token. -/
theorem begins_type {p us : List Token} {t : TypeExpr} (hp : s.unread = p ++ us)
    (ht : DerivesType p t) : (∃ name, s.cursor.peek? 0 = some (.identifier name)) ∨
      ∃ k : Primitive, s.cursor.peek? 0 = some (.keyword k.keyword) := by
  obtain ⟨c, q, rfl, ⟨name, rfl⟩ | ⟨k, rfl⟩⟩ := Phrase.begins_of_type ht
  · exact .inl ⟨name, (Reading.head?_unread_iff (Token.plain_identifier name)).1 (by rw [hp]; rfl)⟩
  · exact .inr ⟨k, (Reading.head?_unread_iff (Token.plain_keyword _)).1 (by rw [hp]; rfl)⟩

theorem namedElement (hs : s.Visible)
    (ih : ∀ u, u.Visible → u.unread.length < s.unread.length → Reads argument u Phrase.type)
    {name : String} (hc : s.cursor.peek? 0 = some (.identifier name)) :
    Reads (Reader.namedType argument) s Phrase.element := by
  have hu := Reading.unread_eq_cons rfl hc
  refine (namedType hs ih).congr fun p t us hp => ?_
  constructor
  · rintro (⟨n, rfl, rfl, hn⟩ | ⟨n, q, r, first, others, rfl, hq, hr, rfl⟩)
    · exact ⟨.reference n, by simp, fun _ => hn⟩
    · exact ⟨.generic n hq hr, by simp, by simp [TypeExpr.isReference]⟩
  · rintro ⟨ht, ha, hn⟩
    cases ht with
    | primitive k => simp [hu] at hp
    | reference n => exact .inl ⟨n, rfl, rfl, hn rfl⟩
    | generic n hq hr => exact .inr ⟨n, _, _, _, _, rfl, hq, hr, rfl⟩
    | array he => exact absurd rfl (ha _)

theorem primitiveElement (hs : s.Visible) {kind : Primitive}
    (hc : s.cursor.peek? 0 = some (.keyword kind.keyword)) :
    Reads (do Reader.skip; return .primitive kind) s Phrase.element := by
  have hu := Reading.unread_eq_cons rfl hc
  refine (bind_skip hs rfl hc fun v hv _ => pure hv (TypeExpr.primitive kind)).congr
    fun p t us hp => ?_
  constructor
  · rintro ⟨_, rfl, rfl, rfl⟩
    exact ⟨.primitive kind, by simp, by simp [TypeExpr.isReference]⟩
  · rintro ⟨ht, ha, -⟩
    cases ht with
    | primitive k =>
      obtain ⟨h, -⟩ : kind.keyword = k.keyword ∧ _ := by simpa [hu] using hp
      obtain rfl := Primitive.keyword_injective h
      exact ⟨[], rfl, rfl, rfl⟩
    | array he => exact absurd rfl (ha _)
    | _ => simp [hu] at hp

/-- The keyword of a primitive type, or a named type. -/
theorem elementType (hs : s.Visible)
    (ih : ∀ u, u.Visible → u.unread.length < s.unread.length → Reads argument u Phrase.type) :
    Reads (elementType argument) s Phrase.element := by
  apply bind_current
  split
  · next hc =>
    refine tooFew hs _ fun p t us hp ⟨ht, _⟩ => ?_
    obtain ⟨_, h⟩ | ⟨_, h⟩ := begins_type hp ht <;> simp [hc] at h
  · next name hc => exact namedElement hs ih hc
  · next k hc =>
    split
    · next kind hk =>
      obtain rfl := Primitive.keyword_of_ofKeyword? hk
      exact primitiveElement hs hc
    · next hk =>
      refine unexpected hs _ fun p t us hp ⟨ht, _⟩ => ?_
      obtain ⟨_, h⟩ | ⟨kind, h⟩ := begins_type hp ht
      · simp [hc] at h
      · rw [hc] at h
        cases h
        simp [Primitive.ofKeyword?_keyword] at hk
  · next hi hk hc =>
    refine unexpected hs _ fun p t us hp ⟨ht, _⟩ => ?_
    obtain ⟨_, h⟩ | ⟨_, h⟩ := begins_type hp ht
    · exact hi _ (Option.some.inj (hc.symm.trans h))
    · exact hk _ (Option.some.inj (hc.symm.trans h))

/-- An element type, and brackets as far as they reach. -/
theorem typeBody (hs : s.Visible)
    (ih : ∀ u, u.Visible → u.unread.length < s.unread.length → Reads argument u Phrase.type) :
    Reads (typeBody argument) s Phrase.type := by
  refine ((elementType hs ih).bind fun e p u hu hp _ =>
    extend hu (fun e v hv _ => arrayBrackets hv e) ?_ e).congr fun p t us _ => Phrase.type_iff
  rintro e p f us ⟨rfl, -⟩
  simp

theorem noType (hs : s.Visible) (hn : s.unread = []) :
    Reads (Reader.tooFew [.type]) s Phrase.type := by
  refine tooFew hs _ fun p e us hp ⟨he, _⟩ => ?_
  obtain ⟨c, q, rfl, -⟩ := Phrase.begins_of_type he
  simp [hn] at hp

theorem typeExpr (hs : s.Visible) : Reads typeExpr s Phrase.type :=
  nested (fun _ => noType) (fun _ _ ht ih => typeBody ht ih) hs

end Reader.Reads
end ClassText
