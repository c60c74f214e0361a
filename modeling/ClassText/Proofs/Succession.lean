import ClassText.Proofs.Concatenation
import ClassText.Proofs.Course

/-! Declarations one behind the other. What is read of a declaration does not hang on what follows it, so
the declarations of a source are exactly those whose derivations make up its tokens, and sources that
are joined by newlines give the declarations of each in turn. -/
namespace ClassText

open Grammar Lexeme

namespace Located

/-- What may be left of located tokens: the last of them, of which the first may only remain in part. -/
inductive Leaves : List Located → List Located → Prop
  | all : Leaves ls ls
  | skip : Leaves ls ms → Leaves (l :: ls) ms
  | split : l.token = .symbol x → x.afterAngle? = some left →
      Leaves (l.splitTo (.symbol left) :: ls) ms → Leaves (l :: ls) ms

namespace Leaves

variable {ls ms ns : List Located}

theorem append (h : Leaves ls ms) (us : List Located) : Leaves (ls ++ us) (ms ++ us) := by
  induction h with
  | all => exact .all
  | skip _ ih => exact .skip ih
  | split ht hx _ ih => exact .split ht hx ih

/-- Of the first token a part is left, or it is gone. -/
theorem head_or_tail {l : Located} (h : Leaves (l :: ls) ms) : (∃ m, ms = m :: ls) ∨ Leaves ls ms := by
  generalize hk : l :: ls = ks at h
  induction h generalizing l with
  | all => exact .inl ⟨l, hk.symm⟩
  | skip h =>
    cases hk
    exact .inr h
  | split _ _ _ ih =>
    cases hk
    exact ih rfl

/-- Of two things that may be left of the same tokens, one may be left of the other. -/
theorem total (h : Leaves ls ms) (h' : Leaves ls ns) : Leaves ms ns ∨ Leaves ns ms := by
  induction h with
  | all => exact .inl h'
  | skip h ih =>
    obtain ⟨n, rfl⟩ | h' := h'.head_or_tail
    · exact .inr (.skip h)
    · exact ih h'
  | split ht hx h ih =>
    cases h' with
    | all => exact .inr (.split ht hx h)
    | skip h' => exact ih (.skip h')
    | split ht' hx' h' =>
      cases ht.symm.trans ht'
      cases hx.symm.trans hx'
      exact ih h'

theorem eq_or_length_lt (h : Leaves ls ms) : ms = ls ∨
    (Token.expand (ms.map (·.token))).length < (Token.expand (ls.map (·.token))).length := by
  induction h with
  | all => exact .inl rfl
  | @skip _ _ l _ ih =>
    have hpos := List.length_pos_iff.2 l.token.parts_ne_nil
    right
    rw [List.map_cons, Token.expand_cons, List.length_append]
    obtain rfl | ih := ih
    · omega
    · omega
  | @split l _ _ _ _ ht hx _ ih =>
    have hparts := Token.parts_of_afterAngle? ht hx
    right
    rw [List.map_cons, Token.expand_cons, hparts, List.cons_append, List.length_cons]
    obtain rfl | ih := ih
    · rw [List.map_cons, Token.expand_cons, token_splitTo]
      omega
    · rw [List.map_cons, Token.expand_cons, token_splitTo] at ih
      omega

/-- How much is left shows what is left. -/
theorem eq_of_expand_eq (h : Leaves ls ms) (h' : Leaves ls ns)
    (he : Token.expand (ms.map (·.token)) = Token.expand (ns.map (·.token))) : ms = ns := by
  have hlength := congrArg List.length he
  obtain h | h := h.total h'
  · obtain rfl | hlt := h.eq_or_length_lt
    · rfl
    · omega
  · obtain rfl | hlt := h.eq_or_length_lt
    · rfl
    · omega

end Leaves
end Located

theorem TokenCursor.Moves.leaves {c d : TokenCursor} (h : Moves c d) :
    Located.Leaves c.ahead d.ahead := by
  induction h with
  | stay => exact .all
  | skip _ _ ih => exact .skip ih
  | split ht hx _ ih => exact .split ht hx ih

/-- A declaration that is read without seeing the end is read with more tokens behind, which are then
behind what it has left. -/
theorem Reader.run_nextDeclaration_append {ts us : List Located}
    (hts : VisibleTokens (ts.map (·.token))) (hus : VisibleTokens (us.map (·.token))) {c : ClassDecl}
    {t : Reading} (h : nextDeclaration.run (.ofTokens ts) = .ok (some c) t) :
    ∃ u, nextDeclaration.run (.ofTokens (ts ++ us)) = .ok (some c) u ∧
      u.cursor.ahead = t.cursor.ahead ++ us := by
  have hall : VisibleTokens ((ts ++ us).map (·.token)) := by
    intro name hn
    rw [List.map_append] at hn
    obtain hn | hn := List.mem_append.1 hn
    · exact hts name hn
    · exact hus name hn
  obtain ⟨p, hp, hc⟩ := (run_nextDeclaration_iff hts).1 ⟨t, h, rfl⟩
  have hp' : Token.expand ((ts ++ us).map (·.token)) =
      p ++ (t.unread ++ Token.expand (us.map (·.token))) := by
    rw [List.map_append, Token.expand_append, hp, List.append_assoc]
  obtain ⟨u, hu, hrest⟩ := (run_nextDeclaration_iff hall).2 ⟨p, hp', hc⟩
  refine ⟨u, hu, ?_⟩
  have haccords : Accords [] us nextDeclaration nextDeclaration (.ofTokens ts) :=
    Accords.nextDeclaration (visible_ofTokens hts)
  have haccords' : Accords [] [] nextDeclaration nextDeclaration (.ofTokens (ts ++ us)) :=
    Accords.nextDeclaration (visible_ofTokens hall)
  refine (haccords'.of_ok hu).1.leaves.eq_of_expand_eq ((haccords.of_ok h).1.leaves.append us) ?_
  rw [List.map_append, Token.expand_append]
  exact hrest

namespace Session

/-- Asked for one declaration after the other, the session gives these and then nothing. -/
inductive Yields : Session → List ClassDecl → Prop
  | done {s t : Session} : s.next = (.ok none, t) → Yields s []
  | more {s t : Session} : s.next = (.ok (some c), t) → Yields t cs → Yields s (c :: cs)

variable {s : Session}

theorem sequence_of_yields {cs : List ClassDecl} (h : s.Yields cs) (hs : s.Sound)
    (hf : s.failed = false) : Sequence DerivesClass s.reading.unread cs := by
  induction h with
  | done h =>
    obtain ⟨hn, -⟩ | ⟨c, p, t, ht, -⟩ | ⟨e, t, ht, -⟩ := next_cases hs hf
    · rw [hn]
      exact .nil
    · cases h.symm.trans ht
    · cases h.symm.trans ht
  | more h _ ih =>
    obtain ⟨-, ht⟩ | ⟨d, p, t, ht, hs', hf', hp, hd⟩ | ⟨e, t, ht, -⟩ := next_cases hs hf
    · cases h.symm.trans ht
    · cases h.symm.trans ht
      rw [hp]
      exact .cons hd (ih hs' hf')
    · cases h.symm.trans ht

theorem yields_of_sequence {us : List Token} {cs : List ClassDecl} (h : Sequence DerivesClass us cs)
    (hs : s.Sound) (hf : s.failed = false) (hu : s.reading.unread = us) : s.Yields cs := by
  induction h generalizing s with
  | nil => exact .done (next_of_ok hf (Reader.run_nextDeclaration_at_end hu))
  | @cons p c q cs hc _ ih =>
    obtain ⟨hn, -⟩ | ⟨d, p', t, ht, hs', hf', hp', hd⟩ | ⟨e, t, -, -, -, hno⟩ := next_cases hs hf
    · rw [hn] at hu
      exact absurd (List.append_eq_nil_iff.1 hu.symm).1 (ne_nil_of_class hc)
    · obtain ⟨rfl, rfl⟩ := Reader.derivation_unique hs hu hc hp' hd
      exact .more ht (ih hs' hf' (List.append_cancel_left (hp'.symm.trans hu)))
    · exact absurd hc (hno p c q hu)

/-- A session gives exactly the classes whose derivations, one behind the other, make up its tokens. -/
theorem yields_iff (hs : s.Sound) (hf : s.failed = false) {cs : List ClassDecl} :
    s.Yields cs ↔ Sequence DerivesClass s.reading.unread cs :=
  ⟨fun h => sequence_of_yields h hs hf, fun h => yields_of_sequence h hs hf rfl⟩

end Session

theorem Grammar.Sequence.append {item : List Token → α → Prop} {p q : List Token} {as bs : List α}
    (hp : Sequence item p as) (hq : Sequence item q bs) : Sequence item (p ++ q) (as ++ bs) := by
  induction hp with
  | nil => exact hq
  | cons ha _ ih =>
    rw [List.append_assoc]
    exact .cons ha ih

/-- The source is cut into tokens, and a session over them gives these classes and then nothing. -/
def Declares (source : String) (cs : List ClassDecl) : Prop :=
  ∃ ls, tokenize source = .ok ls ∧ (Session.ofTokens ls).Yields cs

/-- A source declares the classes whose derivations make up its tokens. -/
theorem declares_iff {source : String} {cs : List ClassDecl} : Declares source cs ↔
    ∃ ls, tokenize source = .ok ls ∧ Sequence DerivesClass (Token.expand (ls.map (·.token))) cs :=
  exists_congr fun _ => and_congr_right fun hls =>
    Session.yields_iff (Session.sound_ofTokens hls) rfl

/-- The tokens of sources that are joined by a newline are those of the one and then of the other. -/
theorem tokens_append_newline {a b : String} {as bs : List Located} (ha : tokenize a = .ok as)
    (hb : tokenize b = .ok bs) : ∃ ls, tokenize (a ++ "\n" ++ b) = .ok ls ∧
      ls.map (·.token) = as.map (·.token) ++ bs.map (·.token) := by
  have ha' := tokenize_eq_ok_iff.1 ha
  have hb' := tokenize_eq_ok_iff.1 hb
  have hscan := scan_append_newline a b (by rw [ha'])
  rw [ha', hb'] at hscan
  refine ⟨_, tokenize_eq_ok_iff.2 hscan, ?_⟩
  rw [List.map_append, List.map_map]
  rfl

theorem declares_append_newline {a b : String} {as bs : List ClassDecl} (ha : Declares a as)
    (hb : Declares b bs) : Declares (a ++ "\n" ++ b) (as ++ bs) := by
  obtain ⟨ls, hls, has⟩ := declares_iff.1 ha
  obtain ⟨ms, hms, hbs⟩ := declares_iff.1 hb
  obtain ⟨ns, hns, htokens⟩ := tokens_append_newline hls hms
  refine declares_iff.2 ⟨ns, hns, ?_⟩
  rw [htokens, Token.expand_append]
  exact has.append hbs

theorem declares_intercalate {sources : List String} {css : List (List ClassDecl)}
    (h : List.Forall₂ Declares sources css) : Declares ("\n".intercalate sources) css.flatten := by
  induction h with
  | nil => exact ⟨[], rfl, .done rfl⟩
  | @cons source cs sources css hfirst hrest ih =>
    cases hrest with
    | nil =>
      rw [String.intercalate_singleton, List.flatten_cons, List.flatten_nil, List.append_nil]
      exact hfirst
    | cons =>
      rw [String.intercalate_cons_cons, List.flatten_cons]
      exact declares_append_newline hfirst ih

/-- A class that begins a source is read whatever follows behind a newline, as long as it is cut into
tokens. -/
theorem parse_append_of_parse {a b : String} {c : ClassDecl} (ha : parse a = .ok c)
    {bs : List Located} (hb : tokenize b = .ok bs) : parse (a ++ "\n" ++ b) = .ok c := by
  obtain ⟨as, p, rest, hls, hp, hc⟩ := parse_iff.1 ha
  obtain ⟨ls, hall, htokens⟩ := tokens_append_newline hls hb
  refine parse_iff.2 ⟨ls, p, rest ++ Token.expand (bs.map (·.token)), hall, ?_, hc⟩
  rw [htokens, Token.expand_append, hp, List.append_assoc]

/-- Declarations compose. One that is read from some tokens is read from them with any tokens behind,
and these are behind what it leaves. Sources that are joined by newlines declare what they declare one
by one. And a source with any other behind a newline is read as its first class. -/
theorem declarations_compose :
    (∀ ts us c t, VisibleTokens (ts.map (·.token)) → VisibleTokens (us.map (·.token)) →
      Reader.nextDeclaration.run (.ofTokens ts) = .ok (some c) t →
      ∃ u, Reader.nextDeclaration.run (.ofTokens (ts ++ us)) = .ok (some c) u ∧
        u.cursor.ahead = t.cursor.ahead ++ us) ∧
    (∀ sources css, List.Forall₂ Declares sources css →
      Declares ("\n".intercalate sources) css.flatten) ∧
    ∀ a b c bs, parse a = .ok c → tokenize b = .ok bs → parse (a ++ "\n" ++ b) = .ok c :=
  ⟨fun _ _ _ _ hts hus h => Reader.run_nextDeclaration_append hts hus h,
    fun _ _ h => declares_intercalate h, fun _ _ _ _ ha hb => parse_append_of_parse ha hb⟩

/-- A class stands at the very end of its tokens, a dot and a compound symbol come behind. Of three sources
the first ends in an open comment, the second is empty and the third declares two classes. -/
theorem declarations_compose_open_line :
    let bare (n : Name) : ClassDecl := ⟨none, [], [], n, none, [], [], []⟩
    let a := bare ⟨"A", by decide +kernel⟩
    let b := bare ⟨"B", by decide +kernel⟩
    let c := bare ⟨"C", by decide +kernel⟩
    let located (t : Token) : Located := ⟨t, .origin, ⟨0, 0⟩⟩
    let ts := [Token.keyword .«class», .identifier "A", .symbol .leftBrace, .symbol .rightBrace].map located
    let us := [Token.symbol .dot, .symbol .shr].map located
    let sources := ["class A\x7b\x7d //", "", "class B\x7b\x7dclass C\x7b\x7d"]
    (∃ t u, Reader.nextDeclaration.run (.ofTokens ts) = .ok (some a) t ∧
      Reader.nextDeclaration.run (.ofTokens (ts ++ us)) = .ok (some a) u ∧
      u.cursor.ahead = t.cursor.ahead ++ us) ∧
    List.Forall₂ Declares sources [[a], [], [b, c]] ∧ Declares ("\n".intercalate sources) [a, b, c] ∧
    parse "class A\x7b\x7d //" = .ok a ∧ parse "class A\x7b\x7d //\n.>>" = .ok a := by
  intro bare a b c located ts us sources
  have hts : VisibleTokens (ts.map (·.token)) := by decide +kernel
  have hus : VisibleTokens (us.map (·.token)) := by decide +kernel
  let tokens (n : Name) := [Token.keyword .«class», .identifier n.text, .symbol .leftBrace, .symbol .rightBrace]
  have derives (n : Name) : DerivesClass (tokens n) (bare n) :=
    .intro (.intro (bare n) .none .nil (.intro n) .none .nil) .nil rfl rfl
  have hone : Sequence DerivesClass (tokens a.name ++ []) [a] := .cons (derives a.name) .nil
  have htwo : Sequence DerivesClass (tokens b.name ++ (tokens c.name ++ [])) [b, c] :=
    .cons (derives b.name) (.cons (derives c.name) .nil)
  have hfirst : tokenize "class A\x7b\x7d //" = .ok [⟨.keyword .«class», ⟨1, 1, 0⟩, ⟨0, 5⟩⟩,
      ⟨.identifier "A", ⟨1, 7, 6⟩, ⟨6, 7⟩⟩, ⟨.symbol .leftBrace, ⟨1, 8, 7⟩, ⟨7, 8⟩⟩,
      ⟨.symbol .rightBrace, ⟨1, 9, 8⟩, ⟨8, 9⟩⟩] := by decide +kernel
  have hlast : tokenize "class B\x7b\x7dclass C\x7b\x7d" = .ok [⟨.keyword .«class», ⟨1, 1, 0⟩, ⟨0, 5⟩⟩,
      ⟨.identifier "B", ⟨1, 7, 6⟩, ⟨6, 7⟩⟩, ⟨.symbol .leftBrace, ⟨1, 8, 7⟩, ⟨7, 8⟩⟩,
      ⟨.symbol .rightBrace, ⟨1, 9, 8⟩, ⟨8, 9⟩⟩, ⟨.keyword .«class», ⟨1, 10, 9⟩, ⟨9, 14⟩⟩,
      ⟨.identifier "C", ⟨1, 16, 15⟩, ⟨15, 16⟩⟩, ⟨.symbol .leftBrace, ⟨1, 17, 16⟩, ⟨16, 17⟩⟩,
      ⟨.symbol .rightBrace, ⟨1, 18, 17⟩, ⟨17, 18⟩⟩] := by decide +kernel
  have hdeclares : List.Forall₂ Declares sources [[a], [], [b, c]] :=
    .cons (declares_iff.2 ⟨_, hfirst, hone⟩) (.cons (declares_iff.2 ⟨[], rfl, .nil⟩)
      (.cons (declares_iff.2 ⟨_, hlast, htwo⟩) .nil))
  have hparse : parse "class A\x7b\x7d //" = .ok a := parse_iff.2 ⟨_, _, [], hfirst, rfl, derives a.name⟩
  have hmarks : tokenize ".>>" = .ok [⟨.symbol .dot, ⟨1, 1, 0⟩, ⟨0, 1⟩⟩,
      ⟨.symbol .shr, ⟨1, 2, 1⟩, ⟨1, 3⟩⟩] := by decide +kernel
  obtain ⟨t, ht, -⟩ := (Reader.run_nextDeclaration_iff hts).2 ⟨_, (List.append_nil _).symm, derives a.name⟩
  obtain ⟨happend, hjoin, hbegin⟩ := declarations_compose
  obtain ⟨u, hu, hleft⟩ := happend ts us a t hts hus ht
  exact ⟨⟨t, u, ht, hu, hleft⟩, hdeclares, hjoin _ _ hdeclares, hparse, hbegin _ _ a _ hparse hmarks⟩

end ClassText
