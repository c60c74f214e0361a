import ClassText.Proofs.RoundTrip

/-! What canonical text does to the tokens that were read. The tokens of a class are cut behind its
opening brace and behind each of its members; canonical text has the same slices, with those of fields
in front of those of methods. -/
namespace ClassText

open Grammar Lexeme Piece

/-- The tokens of one member. -/
structure Slice where
  tokens : List Token
  member : Member
  derives : DerivesMember tokens member

namespace Slice

def isField (s : Slice) : Bool := s.member.field?.isSome

def isMethod (s : Slice) : Bool := s.member.method?.isSome

theorem tokens_eq (s : Slice) : s.tokens = Piece.tokens s.member.pieces :=
  (s.member.derives_iff.1 s.derives).2

theorem sequence_members (ss : List Slice) :
    Sequence DerivesMember (ss.flatMap tokens) (ss.map member) := by
  induction ss with
  | nil => exact .nil
  | cons s ss ih =>
    rw [List.flatMap_cons, List.map_cons]
    exact .cons s.derives ih

theorem exists_of_sequence {q : List Token} {ms : List Member} (h : Sequence DerivesMember q ms) :
    ∃ ss : List Slice, ss.flatMap tokens = q ∧ ss.map member = ms := by
  induction h with
  | nil => exact ⟨[],rfl,rfl⟩
  | cons hp _ ih =>
    obtain ⟨ss, hq, hm⟩ := ih
    refine ⟨⟨_,_,hp⟩ :: ss, ?_, ?_⟩
    · rw [List.flatMap_cons, hq]
    · rw [List.map_cons, hm]

/-- The slices of one kind of member have the tokens of these members, in their order. -/
theorem tokens_filter {kind : Member → Option α} {pieces : α → List Piece}
    (h : ∀ m a, kind m = some a → m.pieces = pieces a) (ss : List Slice) :
    (ss.filter fun s => (kind s.member).isSome).flatMap tokens =
      Piece.tokens (((ss.map member).filterMap kind).flatMap pieces) := by
  induction ss with
  | nil => rfl
  | cons s ss ih =>
    rw [List.map_cons]
    cases hs : kind s.member with
    | none =>
      rw [List.filter_cons_of_neg (by simp [hs]), List.filterMap_cons_none hs]
      exact ih
    | some a =>
      rw [List.filter_cons_of_pos (by simp [hs]), List.filterMap_cons_some hs]
      rw [List.flatMap_cons, List.flatMap_cons, tokens_append, ih, s.tokens_eq, h _ _ hs]

theorem tokens_fields (ss : List Slice) : (ss.filter isField).flatMap tokens =
    Piece.tokens (((ss.map member).filterMap Member.field?).flatMap Field.pieces) :=
  tokens_filter (fun m _ h => by cases m <;> cases h; rfl) ss

theorem tokens_methods (ss : List Slice) : (ss.filter isMethod).flatMap tokens =
    Piece.tokens (((ss.map member).filterMap Member.method?).flatMap Method.pieces) :=
  tokens_filter (fun m _ h => by cases m <;> cases h; rfl) ss

end Slice

/-- The tokens of a class, cut behind its opening brace, which is the first brace there is, and behind
each of its members. -/
structure Cut where
  opening : List Token
  braceless : .symbol .leftBrace ∉ opening
  slices : List Slice

namespace Cut

def head (k : Cut) : List Token := k.opening ++ [.symbol .leftBrace]

def members (k : Cut) : List Member := k.slices.map Slice.member

/-- The tokens as they were cut. -/
def inOrder (k : Cut) : List Token :=
  k.head ++ k.slices.flatMap Slice.tokens ++ [.symbol .rightBrace]

/-- The same slices, with those of fields in front of those of methods. -/
def fieldsFirst (k : Cut) : List Token :=
  k.head ++ (k.slices.filter Slice.isField).flatMap Slice.tokens ++
    (k.slices.filter Slice.isMethod).flatMap Slice.tokens ++ [.symbol .rightBrace]

end Cut

namespace Piece

theorem notMem_tokens_flatMap {f : α → List Piece} {t : Token} (h : ∀ a, t ∉ tokens (f a))
    (as : List α) : t ∉ tokens (as.flatMap f) := by
  induction as with
  | nil => simp
  | cons a as ih => simpa using ⟨h a, ih⟩

theorem notMem_tokens_nameList {s between : Symbol} (h : s ≠ between) (ns : List Name) :
    .symbol s ∉ tokens (nameList between ns) := by
  cases ns with
  | nil => simp [nameList]
  | cons n ns => simpa [nameList] using notMem_tokens_flatMap (fun m => by simp [h]) ns

end Piece

namespace ClassDecl

/-- The brace that opens a class is the first one in its canonical text. -/
theorem exists_opening (c : ClassDecl) : ∃ opening, .symbol .leftBrace ∉ opening ∧
    tokens c.headPieces = opening ++ [.symbol .leftBrace] := by
  refine ⟨_, ?_, by rw [headPieces, tokens_append]; rfl⟩
  have hdotted (k : Keyword) (q : QualifiedName) :
      .symbol .leftBrace ∉ tokens (q.piecesAfter k ++ [Piece.newline]) := by
    simpa [QualifiedName.piecesAfter] using notMem_tokens_nameList (by decide) q.segments
  have hmodifiers : .symbol .leftBrace ∉ tokens (modifierList c.modifiers) :=
    notMem_tokens_flatMap (fun m => by simp) c.modifiers
  have hover : .symbol .leftBrace ∉ tokens (superclassPieces c.superclass) := by
    cases c.superclass <;> simp [superclassPieces]
  have htypes : .symbol .leftBrace ∉ tokens (interfacePieces c.interfaces) := by
    cases c.interfaces with
    | nil => simp [interfacePieces]
    | cons n ns => simpa [interfacePieces] using notMem_tokens_nameList (by decide) (n :: ns)
  simp only [tokens_append, List.mem_append, not_or]
  refine ⟨⟨⟨⟨⟨?_, ?_⟩, hmodifiers⟩, by simp⟩, hover⟩, htypes⟩
  · exact notMem_tokens_flatMap (hdotted _) _
  · exact notMem_tokens_flatMap (hdotted _) _

/-- The class with these members in place of its own. -/
def withMembers (c : ClassDecl) (ms : List Member) : ClassDecl :=
  { c with fields := ms.filterMap Member.field?, methods := ms.filterMap Member.method? }

theorem derivesHead_withMembers {c : ClassDecl} {ms : List Member} {p : List Token} :
    DerivesHead p (c.withMembers ms) ↔ DerivesHead p c := by
  rw [derivesHead_iff, derivesHead_iff]
  rfl

end ClassDecl

namespace Cut

theorem exists_of_derives {p : List Token} {c : ClassDecl} (h : DerivesClass p c) :
    ∃ k : Cut, k.inOrder = p := by
  obtain ⟨hp, hq, -, -⟩ := h
  obtain ⟨opening, hb, ho⟩ := c.exists_opening
  obtain ⟨ss, hs, -⟩ := Slice.exists_of_sequence hq
  refine ⟨⟨opening,hb,ss⟩, ?_⟩
  rw [inOrder, head, ← ho, hs, ClassDecl.derivesHead_iff.1 hp]

/-- What stands before the first opening brace is determined by the tokens. -/
theorem takeWhile_opening {opening rest : List Token} (h : Token.symbol .leftBrace ∉ opening) :
    (opening ++ [Token.symbol .leftBrace] ++ rest).takeWhile (· ≠ .symbol .leftBrace) = opening := by
  have hb : ∀ t ∈ opening, decide (t ≠ .symbol .leftBrace) = true := by
    intro t ht
    exact decide_eq_true (ne_of_mem_of_not_mem ht h)
  rw [List.append_assoc, List.takeWhile_append_of_pos hb]
  simp

/-- The head of the tokens of a class derives the head of the class. -/
theorem derivesHead {k : Cut} {c : ClassDecl} (h : DerivesClass k.inOrder c) :
    DerivesHead k.head c := by
  generalize hp : k.inOrder = p at h
  obtain @⟨p, _, q, members, hhead, -, -, -⟩ := h
  obtain ⟨opening, hb, ho⟩ := c.exists_opening
  rw [ClassDecl.derivesHead_iff] at hhead ⊢
  rw [inOrder, head, hhead, ho, List.append_assoc, List.append_assoc _ q] at hp
  have he := congrArg (List.takeWhile (· ≠ Token.symbol .leftBrace)) hp
  rw [takeWhile_opening k.braceless, takeWhile_opening hb] at he
  rw [head, he, ho]

/-- The tokens derive the class that has their members. -/
theorem derivesClass {k : Cut} {c : ClassDecl} (h : DerivesHead k.head c) :
    DerivesClass k.inOrder (c.withMembers k.members) :=
  .intro (ClassDecl.derivesHead_withMembers.2 h) (Slice.sequence_members k.slices) rfl rfl

/-- Fields first, the tokens are those of the canonical text. -/
theorem fieldsFirst_eq {k : Cut} {c : ClassDecl} (h : DerivesHead k.head c)
    (hf : k.members.filterMap Member.field? = c.fields)
    (hm : k.members.filterMap Member.method? = c.methods) : k.fieldsFirst = tokens c.pieces := by
  rw [fieldsFirst, Slice.tokens_fields, Slice.tokens_methods, ClassDecl.derivesHead_iff.1 h]
  rw [members] at hf hm
  rw [hf, hm, ClassDecl.tokens_pieces, tokens_append]
  simp only [List.append_assoc]

end Cut

/-- Formatting keeps every token of what was read, and brings none. The tokens that were consumed can be
cut, and however they are cut, those of the canonical text are the same slices, fields first. -/
theorem tokenize_render_of_parse {source : String} {c : ClassDecl} (h : parse source = .ok c) :
    ∃ ls r consumed, tokenize source = .ok ls ∧
      Reader.nextDeclaration.run (.ofTokens ls) = .ok (some c) r ∧
      Token.expand (ls.map (·.token)) = consumed ++ r.unread ∧
      (∃ k : Cut, k.inOrder = consumed) ∧
      ∀ k : Cut, k.inOrder = consumed →
        k.members.filterMap Member.field? = c.fields ∧
        k.members.filterMap Member.method? = c.methods ∧
        ∃ us, tokenize c.render = .ok us ∧ Token.expand (us.map (·.token)) = k.fieldsFirst := by
  obtain ⟨ls, r, hls, hr⟩ := parse_iff_run.1 h
  have hv := visible_of_tokenize hls
  obtain ⟨p, hp, hc⟩ := (Reader.run_nextDeclaration_iff hv).1 ⟨r,hr,rfl⟩
  refine ⟨ls, r, p, hls, hr, hp, Cut.exists_of_derives hc, ?_⟩
  rintro k rfl
  have hhead := Cut.derivesHead hc
  -- The class with the members of the slices is derived as well, so it is the class that was read.
  obtain ⟨r', hr', -⟩ := (Reader.run_nextDeclaration_iff hv).2 ⟨_, hp, Cut.derivesClass hhead⟩
  have he : c.withMembers k.members = c := by
    obtain ⟨h, -⟩ := EStateM.Result.ok.inj (hr'.symm.trans hr)
    exact Option.some.inj h
  have hf : k.members.filterMap Member.field? = c.fields := congrArg ClassDecl.fields he
  have hm : k.members.filterMap Member.method? = c.methods := congrArg ClassDecl.methods he
  obtain ⟨us, hus, hu⟩ := tokenize_render (isNormal_of_parse h)
  exact ⟨hf, hm, us, hus, hu.trans (Cut.fieldsFirst_eq hhead hf hm).symm⟩

/-- The method stands in front of the field until the class is formatted. -/
theorem tokenize_render_of_parse_method_first :
    ∃ c, parse "class A{void f();B<C<D>>x;}" = .ok c ∧ c.fields.length = 1 ∧ c.methods.length = 1 ∧
      ∃ k : Cut, k.members.filterMap Member.field? = c.fields ∧
        k.members.filterMap Member.method? = c.methods ∧
        ∃ us, tokenize c.render = .ok us ∧ Token.expand (us.map (·.token)) = k.fieldsFirst := by
  have hread : ((parse "class A{void f();B<C<D>>x;}").toOption.any fun c =>
      c.fields.length = 1 && c.methods.length = 1) = true := by
    decide +kernel
  cases h : parse "class A{void f();B<C<D>>x;}" with
  | error e =>
    rw [h] at hread
    cases hread
  | ok c =>
    rw [h] at hread
    obtain ⟨hf, hm⟩ : c.fields.length = 1 ∧ c.methods.length = 1 := by
      simpa [Except.toOption] using hread
    obtain ⟨_, _, _, _, _, _, ⟨k, hk⟩, hall⟩ := tokenize_render_of_parse h
    exact ⟨c, rfl, hf, hm, k, hall k hk⟩

end ClassText
