import ClassText.Proofs.Expectation

/-! Closing angles that are joined into compound symbols, and the same angles one by one. What is read
is the same, and so is what is left unread once compound symbols are taken apart. -/
namespace ClassText

open Grammar

namespace Token

/-- A token that is not compound. -/
def Single (t : Token) : Prop := t.parts = [t]

theorem single_of_mem_parts {t u : Token} (h : u ∈ t.parts) : u.Single := by
  cases t with
  | symbol s =>
    obtain ⟨v, hv, rfl⟩ := List.mem_map.1 h
    have hparts : ∀ s ∈ Symbol.all, ∀ v ∈ s.parts, v.parts = [v] := by decide
    exact congrArg (List.map Token.symbol) (hparts s s.mem_all v hv)
  | _ =>
    obtain rfl := List.mem_singleton.1 h
    rfl

theorem single_of_mem_expand {ts : List Token} {u : Token} (h : u ∈ expand ts) : u.Single := by
  obtain ⟨t, -, hu⟩ := List.mem_flatMap.1 h
  exact single_of_mem_parts hu

/-- Tokens that are not compound are their own parts. -/
theorem expand_of_single {ts : List Token} (h : ∀ t ∈ ts, t.Single) : expand ts = ts := by
  induction ts with
  | nil => rfl
  | cons t ts ih =>
    have ht : t.parts = [t] := h t List.mem_cons_self
    rw [expand_cons, ht, ih fun u hu => h u (List.mem_cons_of_mem t hu)]
    rfl

theorem expand_eq_nil_iff {ts : List Token} : expand ts = [] ↔ ts = [] := by
  cases ts with
  | nil => simp
  | cons t ts => simp [t.parts_ne_nil]

theorem expand_expand (ts : List Token) : expand (expand ts) = expand ts :=
  expand_of_single fun _ h => single_of_mem_expand h

end Token

/-- Where no compound symbol is ahead, none ever is. -/
theorem TokenCursor.Moves.single {c d : TokenCursor} (h : Moves c d)
    (hc : ∀ l ∈ c.ahead, l.token.Single) : ∀ l ∈ d.ahead, l.token.Single := by
  induction h with
  | stay => exact hc
  | skip _ _ ih =>
    apply ih
    intro l hl
    exact hc l (List.mem_cons_of_mem _ hl)
  | @split _ _ _ _ l _ ht hx =>
    have hsingle : l.token.parts = [l.token] := hc l List.mem_cons_self
    rw [Token.parts_of_afterAngle? ht hx] at hsingle
    exact absurd (List.cons.inj hsingle).2 (Token.parts_ne_nil _)

namespace Grammar

/-! There are places for each kind of tree: behind what opens a class, behind what opens the body of a
method there, and behind `return`. -/

theorem exists_opens_member : ∃ p, Opens DerivesMember p := by
  refine ⟨[.keyword .«class», .identifier someName.text, .symbol .leftBrace], fun w m hm => ?_⟩
  let c : ClassDecl := ⟨none, [], [], someName, none, [], [m].filterMap Member.field?,
    [m].filterMap Member.method?⟩
  have hhead : DerivesHead _ c := .intro c .none .nil (.intro someName) .none .nil
  have hclass := DerivesClass.intro hhead (.cons hm .nil) rfl rfl
  exact ⟨[.symbol .rightBrace], c, by simpa [c, modifierWords] using hclass⟩

theorem exists_opens_statement : ∃ p, Opens DerivesStatement p := by
  obtain ⟨p, hp⟩ := exists_opens_member
  refine ⟨p ++ [.keyword .void, .identifier someName.text, .symbol .leftParen, .symbol .rightParen,
    .symbol .leftBrace], fun w st hst => ?_⟩
  have hmethod : DerivesMember (modifierWords [] ++ [.keyword .void] ++ [.identifier someName.text] ++
      .symbol .leftParen :: ([] ++ .symbol .rightParen ::
        .symbol .leftBrace :: ((w ++ []) ++ [.symbol .rightBrace]))) _ :=
    .method (.primitive .void) (.intro someName) .nil (.some (.cons hst .nil))
  exact (hp _ _ hmethod).beginning (by simp [modifierWords])

theorem exists_opens_expr : ∃ p, Opens DerivesExpr p := by
  obtain ⟨p, hp⟩ := exists_opens_statement
  refine ⟨p ++ [.keyword .«return»], fun w e he => ?_⟩
  exact (hp _ _ (.returnValue he)).beginning (by simp)

theorem exists_opens_type : ∃ p, Opens DerivesType p := by
  obtain ⟨p, hp⟩ := exists_opens_member
  exact ⟨p, Reader.Accords.opens_type_of_member hp⟩

end Grammar

namespace Reader

/-- The reader gives the same for the one tokens as for the others: it succeeds on both or on neither,
with the same result, and on the others it leaves the parts of what it leaves on the one. -/
def ReadsAlike (r : Reader α) (ts us : List Located) : Prop := ∀ a rest,
  (∃ t, r.run (.ofTokens ts) = .ok a t ∧ Token.expand (t.cursor.ahead.map (·.token)) = rest) ↔
    ∃ u, r.run (.ofTokens us) = .ok a u ∧ u.cursor.ahead.map (·.token) = rest

section Parts

variable {ts us : List Located} (h : us.map (·.token) = Token.expand (ts.map (·.token)))
include h

theorem single_of_expand : ∀ l ∈ us, l.token.Single := by
  intro l hl
  have hmem : l.token ∈ us.map (·.token) := List.mem_map_of_mem hl
  rw [h] at hmem
  exact Token.single_of_mem_expand hmem

theorem unread_of_expand : (Reading.ofTokens us).unread = (Reading.ofTokens ts).unread :=
  (congrArg Token.expand h).trans (Token.expand_expand _)

theorem visible_of_expand (hts : VisibleTokens (ts.map (·.token))) :
    VisibleTokens (us.map (·.token)) := by
  intro name hn
  rw [h] at hn
  exact hts name (Token.identifier_mem_expand.1 hn)

/-- Of tokens that are not compound, the parts of what is left are what is left. -/
theorem readsAlike_self {p : List Token} {r : Reader α} (hr : Accords p [] r r (.ofTokens us)) :
    ReadsAlike r us us := by
  intro a rest
  refine exists_congr fun u => and_congr_right fun hrun => ?_
  have hahead := (hr.of_ok hrun).1.single (single_of_expand h)
  rw [Token.expand_of_single]
  intro t ht
  obtain ⟨l, hl, rfl⟩ := List.mem_map.1 ht
  exact hahead l hl

/-- A reader that reads a phrase, and moves as readers do, depends on the parts of the tokens only. -/
theorem readsAlike_of_reads {p : List Token} {r : Reader α} {P : Phrase α}
    (hts : Reads r (.ofTokens ts) P) (hus : Reads r (.ofTokens us) P)
    (hr : Accords p [] r r (.ofTokens us)) : ReadsAlike r ts us := by
  intro a rest
  refine hts.run_ok_iff.trans ?_
  rw [← unread_of_expand h, ← hus.run_ok_iff]
  exact readsAlike_self h hr a rest

/-- Of no tokens there are no parts, and otherwise a declaration is read as any phrase is. -/
theorem readsAlike_nextDeclaration (hts : VisibleTokens (ts.map (·.token))) :
    ReadsAlike nextDeclaration ts us := by
  have hus := visible_of_expand h hts
  have hr : Accords [] [] nextDeclaration nextDeclaration (.ofTokens us) :=
    Accords.nextDeclaration (visible_ofTokens hus)
  by_cases hne : us = []
  · have hnil : ts = [] := by
      rw [hne, List.map_nil] at h
      exact List.map_eq_nil_iff.1 (Token.expand_eq_nil_iff.1 h.symm)
    have halike := readsAlike_self h hr
    rwa [hnil, ← hne]
  · have hne' : ts ≠ [] := by
      rintro rfl
      exact hne (List.map_eq_nil_iff.1 h)
    exact readsAlike_of_reads h (reads_nextDeclaration hts hne') (reads_nextDeclaration hus hne) hr

end Parts

/-- It makes no difference to what is read whether compound symbols are taken apart beforehand. -/
theorem readsAlike_of_expand {ts us : List Located} (hts : VisibleTokens (ts.map (·.token)))
    (h : us.map (·.token) = Token.expand (ts.map (·.token))) :
    ReadsAlike typeExpr ts us ∧ ReadsAlike expression ts us ∧ ReadsAlike statement ts us ∧
      ReadsAlike nextDeclaration ts us := by
  have hvts := visible_ofTokens hts
  have hvus := visible_ofTokens (visible_of_expand h hts)
  obtain ⟨p, hp⟩ := exists_opens_type
  obtain ⟨q, hq⟩ := exists_opens_expr
  obtain ⟨r, hr⟩ := exists_opens_statement
  refine ⟨?_, ?_, ?_, readsAlike_nextDeclaration h hts⟩
  · exact readsAlike_of_reads h (.typeExpr hvts) (.typeExpr hvus) (.typeExpr hvus hp)
  · exact readsAlike_of_reads h (.expression hvts) (.expression hvus) (.expression hvus hq)
  · exact readsAlike_of_reads h (.statement hvts) (.statement hvus) (.statement hvus hr)

/-- Two of the characters of a compound symbol close lists of type arguments, and the other two stay
behind the type, in one token or in two. -/
theorem readsAlike_of_expand_unsigned_shift :
    let tokens : List Token := [.identifier "A", .symbol .lt, .identifier "B", .symbol .lt,
      .identifier "C", .symbol .uShrAssign, .integer 0 false]
    let located : Token → Located := fun t => ⟨t, .origin, ⟨0, 0⟩⟩
    let ts := tokens.map located
    let us := (Token.expand tokens).map located
    VisibleTokens (ts.map (·.token)) ∧ us.map (·.token) = Token.expand (ts.map (·.token)) ∧
      ∃ type t u, typeExpr.run (.ofTokens ts) = .ok type t ∧ typeExpr.run (.ofTokens us) = .ok type u ∧
        t.cursor.ahead.map (·.token) = [.symbol .gtEq, .integer 0 false] ∧
        u.cursor.ahead.map (·.token) = [.symbol .gt, .symbol .assign, .integer 0 false] := by
  intro tokens located ts us
  have hts : VisibleTokens (ts.map (·.token)) := by decide +kernel
  let named (x : String) (h : Text.isBlankText x = false) : Name := ⟨x, h⟩
  let type : TypeExpr := .generic (named "A" (by decide +kernel))
    (.generic (named "B" (by decide +kernel)) (.reference (named "C" (by decide +kernel))) []) []
  have hrun : ∃ t, typeExpr.run (.ofTokens ts) = .ok type t ∧
      t.cursor.ahead.map (·.token) = [.symbol .gtEq, .integer 0 false] := ⟨_, rfl, rfl⟩
  obtain ⟨t, ht, hleft⟩ := hrun
  have halike := (readsAlike_of_expand hts (rfl : us.map (·.token) = _)).1
  obtain ⟨u, hu, hrest⟩ := (halike type _).1 ⟨t, ht, congrArg Token.expand hleft⟩
  exact ⟨hts, rfl, type, t, u, ht, hu, hleft, hrest⟩

end Reader
end ClassText
