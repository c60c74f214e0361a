import ClassText.Proofs.Reader.Declaration

/-! The reader of declarations recognizes the classes of the grammar and nothing else. Its answer is
the only derivation that a beginning of the input has. -/
namespace ClassText

open Grammar

theorem Grammar.ne_nil_of_class {p : List Token} {c : ClassDecl} (h : DerivesClass p c) : p ≠ [] := by
  cases h
  simp

theorem Token.identifier_mem_expand {name : String} {ts : List Token} :
    .identifier name ∈ expand ts ↔ .identifier name ∈ ts := by
  have hparts (t : Token) : .identifier name ∈ t.parts ↔ t = .identifier name := by
    cases t with
    | symbol s => cases s <;> simp [parts, Symbol.parts]
    | _ => simp [parts, eq_comm]
  induction ts with
  | nil => simp
  | cons t ts ih => simp [hparts, ih, eq_comm]

/-- No identifier among the tokens is blank. -/
def VisibleTokens (ts : List Token) : Prop :=
  ∀ name, .identifier name ∈ ts → Text.isBlankText name = false

/-- Whether the token is no blank identifier. -/
def Token.isVisible : Token → Bool
  | .identifier name => !Text.isBlankText name
  | _ => true

instance (ts : List Token) : Decidable (VisibleTokens ts) :=
  decidable_of_iff (∀ t ∈ ts, t.isVisible = true) <| by
    constructor
    · intro h name hn
      simpa [Token.isVisible] using h _ hn
    · intro h t ht
      cases t with
      | identifier name => simp [Token.isVisible, h name ht]
      | _ => rfl

/-- What reading a declaration from the tokens answers, once and for all. -/
theorem Reader.reads_nextDeclaration {ts : List Located} (hts : VisibleTokens (ts.map (·.token)))
    (hn : ts ≠ []) : Reads nextDeclaration (.ofTokens ts) fun p o _ =>
      ∃ c, o = some c ∧ DerivesClass p c := by
  refine Reads.nextDeclaration (fun name h => hts name (Token.identifier_mem_expand.1 h)) fun h => ?_
  cases ts with
  | nil => exact hn rfl
  | cons l ls => exact l.token.parts_ne_nil (List.append_eq_nil_iff.1 h).1

/-- Of what is unread, at most one beginning derives a class, and it derives only one. -/
theorem Reader.derivation_unique {s : Reading} (hs : s.Visible) {p q us vs : List Token} {c d : ClassDecl}
    (hp : s.unread = p ++ us) (hc : DerivesClass p c) (hq : s.unread = q ++ vs)
    (hd : DerivesClass q d) : p = q ∧ c = d := by
  have hn : s.unread ≠ [] := by
    intro hn
    rw [hn] at hp
    exact ne_nil_of_class hc (List.append_eq_nil_iff.1 hp.symm).1
  obtain ⟨hpq, hcd⟩ := (Reads.nextDeclaration hs hn).unique hp ⟨c, rfl, hc⟩ hq ⟨d, rfl, hd⟩
  exact ⟨hpq, Option.some.inj hcd⟩

/-- A class is read exactly where a beginning of the tokens derives it. -/
theorem Reader.run_nextDeclaration_iff {ts : List Located}
    (hts : VisibleTokens (ts.map (·.token))) {c : ClassDecl} {rest : List Token} :
    (∃ r, nextDeclaration.run (.ofTokens ts) = .ok (some c) r ∧ r.unread = rest) ↔
      ∃ p, Token.expand (ts.map (·.token)) = p ++ rest ∧ DerivesClass p c := by
  by_cases hn : ts = []
  · subst hn
    constructor
    · rintro ⟨r, h, -⟩
      cases h
    · rintro ⟨p, hp, hc⟩
      exact absurd (List.append_eq_nil_iff.1 hp.symm).1 (ne_nil_of_class hc)
  · rw [(reads_nextDeclaration hts hn).run_ok_iff]
    constructor
    · rintro ⟨p, hp, _, h, hc⟩
      cases h
      exact ⟨p,hp,hc⟩
    · rintro ⟨p, hp, hc⟩
      exact ⟨p, hp, c, rfl, hc⟩

/-- Reading a declaration answers with a class exactly where the grammar derives it from a beginning of
the tokens, and leaves the rest. No other beginning derives a class, and tokens of which no beginning
does are rejected. -/
theorem Reader.nextDeclaration_recognizes (ts : List Located)
    (hts : VisibleTokens (ts.map (·.token))) :
    (∀ c rest, (∃ r, nextDeclaration.run (.ofTokens ts) = .ok (some c) r ∧ r.unread = rest) ↔
      ∃ p, Token.expand (ts.map (·.token)) = p ++ rest ∧ DerivesClass p c) ∧
    (∀ p q us vs c d, Token.expand (ts.map (·.token)) = p ++ us → DerivesClass p c →
      Token.expand (ts.map (·.token)) = q ++ vs → DerivesClass q d → p = q ∧ c = d) ∧
    (ts ≠ [] → (∀ p rest c, Token.expand (ts.map (·.token)) = p ++ rest → ¬ DerivesClass p c) →
      ∃ e r, nextDeclaration.run (.ofTokens ts) = .error (.rejected e) r) := by
  refine ⟨fun c rest => run_nextDeclaration_iff hts, fun p q us vs c d hp hc hq hd => ?_,
    fun hn hc => ?_⟩
  · have hn : ts ≠ [] := by
      rintro rfl
      exact ne_nil_of_class hc (List.append_eq_nil_iff.1 hp.symm).1
    obtain ⟨rfl, he⟩ := (reads_nextDeclaration hts hn).unique hp ⟨c,rfl,hc⟩ hq ⟨d,rfl,hd⟩
    exact ⟨rfl, Option.some.inj he⟩
  · refine (reads_nextDeclaration hts hn).run_rejected ?_
    rintro p _ us hp ⟨c, rfl, hd⟩
    exact hc p us c hp hd

/-- A compound symbol may close two lists of type arguments, and a token may stand behind the class. -/
theorem Reader.nextDeclaration_recognizes_nested_arguments :
    let ts : List Located := [.keyword .«class», .identifier "A", .symbol .leftBrace,
      .identifier "B", .symbol .lt, .identifier "C", .symbol .lt, .identifier "D", .symbol .shr,
      .identifier "x", .symbol .semicolon, .symbol .rightBrace, .symbol .comma].map
        fun t => ⟨t, .origin, ⟨0,0⟩⟩
    VisibleTokens (ts.map (·.token)) ∧
      ∃ c r, nextDeclaration.run (.ofTokens ts) = .ok (some c) r ∧ r.unread = [.symbol .comma] := by
  intro ts
  have hts : VisibleTokens (ts.map (·.token)) := by decide +kernel
  let named (x : String) (h : Text.isBlankText x = false) : Name := ⟨x,h⟩
  let f : Field := ⟨[], .generic (named "B" (by decide +kernel))
    (.generic (named "C" (by decide +kernel)) (.reference (named "D" (by decide +kernel))) []) [],
    named "x" (by decide +kernel), none⟩
  have hf : DerivesMember _ (.field f) :=
    .field (.generic _ (.generic _ (.reference _) .nil) .nil) (.intro _) .none
  have hc : DerivesClass _ ⟨none, [], [], named "A" (by decide +kernel), none, [], [f], []⟩ :=
    .intro (.intro _ .none .nil (.intro _) .none .nil) (.cons hf .nil) rfl rfl
  obtain ⟨r, hr⟩ := ((nextDeclaration_recognizes ts hts).1 _ [.symbol .comma]).2 ⟨_,rfl,hc⟩
  exact ⟨hts,_,r,hr⟩

end ClassText
