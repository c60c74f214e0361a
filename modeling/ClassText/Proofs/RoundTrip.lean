import ClassText.Parse
import ClassText.Proofs.Canonical.Derivation
import ClassText.Proofs.Canonical.Runs
import ClassText.Proofs.Recognition

/-! Reading canonical text. A tree is read back from its canonical text exactly if it is in normal form,
and every tree that is read from any text is. -/
namespace ClassText

open Grammar Lexeme Piece

/-- The identifiers of a text are words, so none of them is blank. -/
theorem isWord_of_tokenize {source : String} {ls : List Located} (h : tokenize source = .ok ls)
    {x : String} (hx : .identifier x ∈ ls.map (·.token)) : isWord x = true :=
  isWord_of_spells (tokenize_iff.1 ⟨ls,h,rfl⟩) hx

theorem visible_of_tokenize {source : String} {ls : List Located} (h : tokenize source = .ok ls) :
    VisibleTokens (ls.map (·.token)) :=
  fun _ hx => isBlankText_of_isWord (isWord_of_tokenize h hx)

/-- A text is read as a class exactly if the reader of declarations reads the class from its tokens. -/
theorem parse_iff_run {source : String} {c : ClassDecl} : parse source = .ok c ↔
    ∃ ls r, tokenize source = .ok ls ∧
      Reader.nextDeclaration.run (.ofTokens ls) = .ok (some c) r := by
  have hrun {ls : List Located} : (parseTokens source ls).1 = .ok c ↔
      ∃ r, Reader.nextDeclaration.run (.ofTokens ls) = .ok (some c) r := by
    unfold parseTokens
    split
    · next d r hr => simp [hr]
    · next r hr => simp [hr]
    · next e r hr => simp [hr]
  unfold parse
  constructor
  · intro h
    split at h
    · cases h
    · next ls hls =>
      obtain ⟨r, hr⟩ := hrun.1 h
      exact ⟨ls, r, hls, hr⟩
  · rintro ⟨ls, r, hls, hr⟩
    rw [hls]
    exact hrun.2 ⟨r,hr⟩

/-- A text is read as a class exactly if its tokens begin with a derivation of the class. -/
theorem parse_iff {source : String} {c : ClassDecl} : parse source = .ok c ↔
    ∃ ls p rest, tokenize source = .ok ls ∧ Token.expand (ls.map (·.token)) = p ++ rest ∧
      DerivesClass p c := by
  rw [parse_iff_run]
  constructor
  · rintro ⟨ls, r, hls, hr⟩
    obtain ⟨p, hp, hc⟩ := (Reader.run_nextDeclaration_iff (visible_of_tokenize hls)).1 ⟨r,hr,rfl⟩
    exact ⟨ls, p, r.unread, hls, hp, hc⟩
  · rintro ⟨ls, p, rest, hls, hp, hc⟩
    obtain ⟨r, hr, -⟩ := (Reader.run_nextDeclaration_iff (visible_of_tokenize hls)).2 ⟨p,hp,hc⟩
    exact ⟨ls, r, hls, hr⟩

/-- What is read is in normal form. -/
theorem isNormal_of_parse {source : String} {c : ClassDecl} (h : parse source = .ok c) :
    c.isNormal = true := by
  obtain ⟨ls, p, rest, hls, hp, hc⟩ := parse_iff.1 h
  obtain ⟨hperm, hf, hm⟩ := ClassDecl.perm_of_derives hc
  refine ClassDecl.isNormal_iff.2 ⟨fun n hn => isWord_of_tokenize hls ?_, hf, hm⟩
  have hmem : n.text ∈ identifiers c.pieces := by
    rw [c.identifiers_pieces]
    exact List.mem_map_of_mem hn
  rw [← Token.identifier_mem_expand, hp]
  exact List.mem_append_left _ (hperm.mem_iff.2 (mem_tokens_of_mem_identifiers hmem))

/-- The canonical text of a tree in normal form is cut into the tokens of its pieces. -/
theorem tokenize_render {c : ClassDecl} (h : c.isNormal = true) :
    ∃ ls, tokenize c.render = .ok ls ∧ Token.expand (ls.map (·.token)) = tokens c.pieces :=
  tokenize_join (ClassDecl.run_pieces (ClassDecl.isNormal_iff.1 h).1)

theorem parse_render_of_isNormal {c : ClassDecl} (h : c.isNormal = true) : parse c.render = .ok c := by
  obtain ⟨-, hf, hm⟩ := ClassDecl.isNormal_iff.1 h
  obtain ⟨ls, hls, he⟩ := tokenize_render h
  exact parse_iff.2 ⟨ls, _, [], hls, by rw [he, List.append_nil], ClassDecl.derives_pieces hf hm⟩

/-- A tree is read back from its canonical text exactly if it is in normal form. -/
theorem parse_render_iff (c : ClassDecl) : parse c.render = .ok c ↔ c.isNormal = true :=
  ⟨isNormal_of_parse, parse_render_of_isNormal⟩

/-- What is read from any text is read again from its canonical text. -/
theorem parse_render_of_parse {source : String} {c : ClassDecl} (h : parse source = .ok c) :
    parse c.render = .ok c :=
  parse_render_of_isNormal (isNormal_of_parse h)

/-- Layout is not part of what is read, and two closing signs may stand as one compound symbol. -/
theorem parse_render_of_parse_nested_arguments :
    ∃ c, parse "class A{/**/B<C<D>>x=y.z(1L)-(w);}" = .ok c ∧ parse c.render = .ok c := by
  have hread : (parse "class A{/**/B<C<D>>x=y.z(1L)-(w);}").toOption.isSome = true := by
    decide +kernel
  cases h : parse "class A{/**/B<C<D>>x=y.z(1L)-(w);}" with
  | error e =>
    rw [h] at hread
    cases hread
  | ok c => exact ⟨c, rfl, parse_render_of_parse h⟩

end ClassText
