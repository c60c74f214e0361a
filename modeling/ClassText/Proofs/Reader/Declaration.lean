import ClassText.Proofs.Reader.Member

/-! The reader of declarations reads exactly the classes of the grammar. -/
namespace ClassText

open Grammar

namespace Name

theorem text_injective {m n : Name} (h : m.text = n.text) : m = n := by
  cases m
  cases n
  cases h
  rfl

theorem map_text_injective {ms ns : List Name} (h : ms.map (·.text) = ns.map (·.text)) : ms = ns :=
  (List.map_inj_right fun _ _ => text_injective).1 h

theorem mapM_check (role : String) (ns : List Name) :
    (ns.map (·.text)).mapM (check role) = .ok ns := by
  induction ns with
  | nil => rfl
  | cons n ns ih => simp only [List.map_cons, List.mapM_cons, ih, check_text]; rfl

theorem exists_map_text {xs : List String} (h : ∀ x ∈ xs, Text.isBlankText x = false) :
    ∃ ns : List Name, ns.map (·.text) = xs := by
  induction xs with
  | nil => exact ⟨[],rfl⟩
  | cons x xs ih =>
    obtain ⟨ns, rfl⟩ := ih fun y hy => h y (List.mem_cons_of_mem _ hy)
    exact ⟨⟨x, h x List.mem_cons_self⟩ :: ns, rfl⟩

end Name

theorem QualifiedName.check_segments (role : String) (q : QualifiedName) :
    check role (q.segments.map (·.text)) = .ok q := by
  simp only [segments, List.map_cons, check, Name.check_text, Name.mapM_check]
  rfl

namespace Phrase

/-- One identifier, by its text. -/
def word : Phrase String := fun p x _ => p = [.identifier x]

theorem mem_of_rounds_word {t : Token} {p us : List Token} {xs : List String}
    (h : Rounds (behind t word) p xs us) {x : String} (hx : x ∈ xs) : .identifier x ∈ p := by
  induction h with
  | stop => cases hx
  | go h _ ih =>
    obtain ⟨_, rfl, rfl⟩ := h
    obtain rfl | hx := List.mem_cons.1 hx
    · simp
    · exact List.mem_append_right _ (ih hx)

theorem mem_of_behind_word {t : Token} {p us : List Token} {o : Option String}
    (h : behind t word p o us) {x : String} (hx : x ∈ o) : .identifier x ∈ p := by
  obtain rfl := Option.mem_def.1 hx
  obtain ⟨_, rfl, rfl⟩ := h
  simp

theorem further_word_iff {sign : Symbol} {p : List Token} {ns : List Name} :
    Further (fun p x => p = [.identifier x]) sign p (ns.map (·.text)) ↔
      Further DerivesName sign p ns := by
  induction ns generalizing p with
  | nil =>
    constructor
    · rintro ⟨⟩
      exact .nil
    · rintro ⟨⟩
      exact .nil
  | cons n ns ih =>
    constructor
    · intro h
      obtain _ | ⟨rfl, h⟩ := h
      exact .cons (.intro n) (ih.1 h)
    · intro h
      obtain _ | ⟨⟨_⟩, h⟩ := h
      exact .cons rfl (ih.2 h)

theorem rounds_word_iff {sign : Symbol} {p us : List Token} {ns : List Name}
    (hn : us.head? ≠ some (.symbol sign)) :
    Rounds (behind (.symbol sign) word) p (ns.map (·.text)) us ↔ Further DerivesName sign p ns := by
  rw [rounds_behind_iff (D := fun p x => p = [.identifier x]) (E := fun _ _ => True)
    (fun _ _ _ => by simp [word]) (by simp) (by simp) hn]
  exact further_word_iff

/-- A dotted name and a semicolon. -/
def qualifiedName : Phrase QualifiedName := fun p q _ =>
  ∃ r, p = r ++ [.symbol .semicolon] ∧ Separated DerivesName .dot r q.segments

theorem behind_qualifiedName_iff {k : Keyword} {p us : List Token} {q : QualifiedName} :
    behind (.keyword k) qualifiedName p (some q) us ↔ DerivesQualified k p q := by
  constructor
  · rintro ⟨_, rfl, r, rfl, hr⟩
    exact .intro hr
  · rintro ⟨hr⟩
    exact ⟨_, rfl, _, rfl, hr⟩

theorem package_iff {p us : List Token} {o : Option QualifiedName} :
    behind (.keyword .package) qualifiedName p o us ↔ Optional (DerivesQualified .package) p o ∧
      (o = none → us.head? ≠ some (.keyword .package)) := by
  cases o with
  | none =>
    constructor
    · rintro ⟨rfl, hn⟩
      exact ⟨.none, fun _ => hn⟩
    · rintro ⟨⟨⟩, hn⟩
      exact ⟨rfl, hn rfl⟩
  | some q =>
    rw [behind_qualifiedName_iff]
    constructor
    · exact fun h => ⟨.some h, by simp⟩
    · rintro ⟨_ | h, -⟩
      exact h

theorem imports_iff {p us : List Token} {qs : List QualifiedName} :
    Rounds (behind (.keyword .«import») qualifiedName) p qs us ↔
      Sequence (DerivesQualified .«import») p qs ∧ us.head? ≠ some (.keyword .«import») := by
  rw [rounds_iff fun _ _ _ => behind_qualifiedName_iff]
  constructor
  · rintro ⟨q, _, rfl, hq, rfl, hn⟩
    rw [List.append_nil]
    exact ⟨hq,hn⟩
  · rintro ⟨hp, hn⟩
    exact ⟨p, [], (List.append_nil p).symm, hp, rfl, hn⟩

theorem superclass_iff {p us : List Token} {o : Option Name} :
    behind (.keyword .«extends») word p (o.map (·.text)) us ↔ Optional DerivesSuperclass p o ∧
      (o = none → us.head? ≠ some (.keyword .«extends»)) := by
  cases o with
  | none =>
    constructor
    · rintro ⟨rfl, hn⟩
      exact ⟨.none, fun _ => hn⟩
    · rintro ⟨⟨⟩, hn⟩
      exact ⟨rfl, hn rfl⟩
  | some n =>
    constructor
    · rintro ⟨_, rfl, rfl⟩
      exact ⟨.some (.intro (.intro n)), by simp⟩
    · rintro ⟨_ | h, -⟩
      obtain ⟨hn⟩ := h
      cases hn
      exact ⟨_, rfl, rfl⟩

/-- The word and the names behind it, or nothing. -/
def interfaces : Phrase (List String) := fun p xs us =>
  (∃ (x : String) (q : List Token) (ys : List String), p = .keyword .implements ::
    .identifier x :: q ∧ Rounds (behind (.symbol .comma) word) q ys us ∧ xs = x :: ys) ∨
  (us.head? ≠ some (.keyword .implements) ∧ p = [] ∧ xs = [])

theorem mem_of_interfaces {p us : List Token} {xs : List String} (h : interfaces p xs us)
    {x : String} (hx : x ∈ xs) : .identifier x ∈ p := by
  obtain ⟨y, q, ys, rfl, hq, rfl⟩ | ⟨-, -, rfl⟩ := h
  · obtain rfl | hx := List.mem_cons.1 hx
    · simp
    · simp [mem_of_rounds_word hq hx]
  · cases hx

theorem interfaces_iff {p us : List Token} {ns : List Name} :
    interfaces p (ns.map (·.text)) (.symbol .leftBrace :: us) ↔ DerivesInterfaces p ns := by
  constructor
  · rintro (⟨x, q, ys, rfl, hq, h⟩ | ⟨-, rfl, h⟩)
    · cases ns with
      | nil => cases h
      | cons n ns =>
        cases h
        exact .some (.intro (.intro n) ((rounds_word_iff (by simp)).1 hq))
    · cases List.map_eq_nil_iff.1 h
      exact .nil
  · intro h
    cases h with
    | nil => exact .inr ⟨by simp, rfl, rfl⟩
    | some h =>
      obtain ⟨hn, hr⟩ := h
      cases hn
      exact .inl ⟨_, _, _, rfl, (rounds_word_iff (by simp)).2 hr, rfl⟩

theorem head?_modifierWords {ms : List Modifier} {us : List Token} {k : Keyword}
    (hk : ∀ m : Modifier, m.keyword ≠ k) (hus : us.head? ≠ some (.keyword k)) :
    (modifierWords ms ++ us).head? ≠ some (.keyword k) := by
  cases ms with
  | nil => exact hus
  | cons m ms => exact fun h => hk m (by simpa [modifierWords] using h)

theorem head?_imports {q us : List Token} {qs : List QualifiedName} {k : Keyword}
    (hq : Sequence (DerivesQualified .«import») q qs) (hk : k ≠ .«import»)
    (hus : us.head? ≠ some (.keyword k)) : (q ++ us).head? ≠ some (.keyword k) := by
  cases hq with
  | nil => exact hus
  | cons h =>
    cases h
    simpa using hk.symm

end Phrase

namespace Reader.Reads

variable {s : Reading}

theorem build_names (hs : s.Visible) (role : String) {xs : List String}
    (hx : ∀ x ∈ xs, Text.isBlankText x = false) :
    Reads (Reader.build (xs.mapM (Name.check role))) s fun p ns _ =>
      p = [] ∧ ns.map (·.text) = xs := by
  obtain ⟨ns, rfl⟩ := Name.exists_map_text hx
  refine (build hs (Name.mapM_check role ns)).congr fun p ms us _ => and_congr_right fun _ => ?_
  constructor
  · rintro rfl
    rfl
  · exact Name.map_text_injective

theorem build_optionalName (hs : s.Visible) (role : String) {o : Option String}
    (ho : ∀ x ∈ o, Text.isBlankText x = false) :
    Reads (Reader.build (o.mapM (Name.check role))) s fun p n _ =>
      p = [] ∧ n.map (·.text) = o := by
  cases o with
  | none =>
    have hmade : none.mapM (Name.check role) = .ok none := rfl
    refine (build hs hmade).congr fun p o us _ => and_congr_right fun _ => ?_
    cases o <;> simp
  | some x =>
    refine (build_named hs (ho x rfl) some ?_).congr fun p o us _ => and_congr_right fun _ => ?_
    · simp only [Option.mapM_some, Name.check, ho x rfl, dite_true]
      rfl
    · cases o <;> simp

theorem words (hs : s.Visible) (role : String) {sign : Symbol} (h : (Token.symbol sign).Plain) :
    Reads (Reader.eachBehind (.symbol sign) (Reader.identifier role)) s
      (Phrase.Rounds (Phrase.behind (.symbol sign) Phrase.word)) :=
  eachBehind h hs fun _ hu _ => identifier hu role

theorem qualifiedName (hs : s.Visible) (role : String) :
    Reads (qualifiedName role) s Phrase.qualifiedName := by
  have segments {first : String} {others : List String} {t : Reading} (ht : t.Visible)
      (hf : Text.isBlankText first = false) (ho : ∀ x ∈ others, Text.isBlankText x = false) :
      Reads (Reader.build (QualifiedName.check role (first :: others))) t fun p q _ =>
        p = [] ∧ q.segments.map (·.text) = first :: others := by
    obtain ⟨ns, rfl⟩ := Name.exists_map_text ho
    let q : QualifiedName := ⟨⟨first,hf⟩, ns⟩
    refine (build ht (q.check_segments role)).congr fun p r us _ => and_congr_right fun _ => ?_
    constructor
    · rintro rfl
      rfl
    · intro h
      have h : r.segments = q.segments := Name.map_text_injective h
      cases r
      cases h
      rfl
  refine (bind_identifier hs fun first t ht _ hf => (words ht role (by decide)).bind
    fun others q u hu hq hqo =>
      have ho : ∀ x ∈ others, Text.isBlankText x = false := fun x hx => ht x (by
        rw [hq]
        exact List.mem_append_left _ (Phrase.mem_of_rounds_word hqo hx))
      bind_expect hu (by decide) fun v hv _ => segments hv hf ho).congr fun p q us _ => ?_
  constructor
  · rintro ⟨first, _, rfl, r, _, others, rfl, hr, _, rfl, rfl, h⟩
    obtain ⟨n, ns⟩ := q
    cases h
    exact ⟨.identifier n.text :: r, rfl, .intro (.intro n) ((Phrase.rounds_word_iff (by simp)).1 hr)⟩
  · rintro ⟨_, rfl, h⟩
    obtain ⟨n, ns⟩ := q
    obtain @⟨_, _, r, _, hn, hr⟩ := h
    obtain ⟨n⟩ := hn
    exact ⟨n.text, _, rfl, r, _, _, rfl, (Phrase.rounds_word_iff (by simp)).2 hr, [], rfl, rfl, rfl⟩

theorem package (hs : s.Visible) :
    Reads package s (Phrase.behind (.keyword .package) Phrase.qualifiedName) :=
  oneBehind (by decide) hs fun _ hu _ => qualifiedName hu Role.packageName

theorem imports (hs : s.Visible) :
    Reads imports s (Phrase.Rounds (Phrase.behind (.keyword .«import») Phrase.qualifiedName)) := by
  refine collect hs ?_ ?_
  · exact fun t ht _ => oneBehind (by decide) ht fun _ hu _ => qualifiedName hu Role.importName
  · rintro p q us ⟨r, rfl, -⟩
    simp

theorem superclass (hs : s.Visible) :
    Reads superclass s (Phrase.behind (.keyword .«extends») Phrase.word) :=
  oneBehind (by decide) hs fun _ hu _ => identifier hu Role.superclassName

theorem interfaces (hs : s.Visible) : Reads interfaces s Phrase.interfaces := by
  refine (ifAccept hs (by decide) (fun t ht _ => bind_identifier ht fun x u hu _ _ =>
    (words hu Role.interfaceName (by decide)).bind_pure (x :: ·))
    fun t ht _ _ => pure ht []).congr fun p xs us _ => ?_
  constructor
  · rintro (⟨_, rfl, x, q, rfl, ys, hq, rfl⟩ | ⟨hn, rfl, rfl⟩)
    · exact .inl ⟨x, q, ys, rfl, hq, rfl⟩
    · exact .inr ⟨hn,rfl,rfl⟩
  · rintro (⟨x, q, ys, rfl, hq, rfl⟩ | ⟨hn, rfl, rfl⟩)
    · exact .inl ⟨_, rfl, x, q, rfl, ys, hq, rfl⟩
    · exact .inr ⟨hn,rfl,rfl⟩

/-- A class, part by part. The names are built when all parts have been read. -/
theorem classDecl (hs : s.Visible) : Reads classDecl s fun p c _ => DerivesClass p c := by
  refine ((package hs).bind fun pk _ t ht _ _ => (imports ht).bind fun im _ t ht _ _ =>
    (modifiers ht).bind fun ms _ t ht _ _ => bind_expect ht (by decide) fun t ht _ =>
    bind_identifier ht fun name u hu _ hname => (superclass hu).bind fun parent _ v hv hq hqo =>
    have hparent : ∀ x ∈ parent, Text.isBlankText x = false := fun x hx => hu x (by
      rw [hq]
      exact List.mem_append_left _ (Phrase.mem_of_behind_word hqo hx))
    (interfaces hv).bind fun types _ w hw hr hrt =>
    have htypes : ∀ x ∈ types, Text.isBlankText x = false := fun x hx => hv x (by
      rw [hr]
      exact List.mem_append_left _ (Phrase.mem_of_interfaces hrt hx))
    bind_expect hw (by decide) fun t ht _ => (members ht).bind fun declared _ t ht _ _ =>
    bind_name ht hname fun n t ht =>
    bind_untaken (build_optionalName ht Role.superclassName hparent) fun o t ht =>
    bind_untaken (build_names ht Role.interfaceName htypes) fun ns t ht =>
    pure ht (ClassDecl.mk pk im ms n o ns (declared.filterMap Member.field?)
      (declared.filterMap Member.method?))).congr fun p c us _ => ?_
  constructor
  · rintro ⟨p, _, pk, rfl, hp, q, _, im, rfl, hq, _, _, ms, rfl, ⟨rfl, -⟩, _, rfl, _, _, rfl, t, _, _,
      rfl, ht, u, _, _, rfl, hu, _, rfl, _, _, declared, rfl, ⟨v, rfl, hv⟩, n, rfl, o, rfl, ns, rfl,
      rfl, rfl⟩
    have hhead : DerivesHead _ ⟨pk, im, ms, n, o, ns, declared.filterMap Member.field?,
        declared.filterMap Member.method?⟩ := .intro _ (Phrase.package_iff.1 hp).1
      (Phrase.imports_iff.1 hq).1 (.intro n) (Phrase.superclass_iff.1 ht).1
      (Phrase.interfaces_iff.1 hu)
    simpa using DerivesClass.intro hhead hv rfl rfl
  · intro h
    obtain @⟨_, c, v, declared, hhead, hv, hfields, hmethods⟩ := h
    obtain @⟨p, q, _, t, u, _, hp, hq, hn, ht, hu⟩ := hhead
    obtain ⟨pk, im, ms, n, o, ns, fields, methods⟩ := c
    cases hn
    cases hfields
    cases hmethods
    -- No part takes the word that opens a later one.
    have hword {k : Keyword} {vs : List Token} (hk : ∀ m : Modifier, m.keyword ≠ k)
        (hc : k ≠ .«class») : (modifierWords ms ++ .keyword .«class» :: vs).head? ≠
          some (.keyword k) :=
      Phrase.head?_modifierWords hk (by simpa using hc.symm)
    have himport {vs : List Token} : (modifierWords ms ++ .keyword .«class» :: vs).head? ≠
        some (.keyword .«import») :=
      hword (fun m => by cases m <;> decide) (by decide)
    have hpackage {vs : List Token} : (q ++ (modifierWords ms ++ .keyword .«class» :: vs)).head? ≠
        some (.keyword .package) :=
      Phrase.head?_imports hq (by decide) (hword (fun m => by cases m <;> decide) (by decide))
    have hmodifier {vs : List Token} (m : Modifier) :
        (Token.keyword .«class» :: vs).head? ≠ some (.keyword m.keyword) := by
      cases m <;> simp [Modifier.keyword]
    have hextends {vs : List Token} : (u ++ .symbol .leftBrace :: vs).head? ≠
        some (.keyword .«extends») := by
      cases hu <;> simp
    exact ⟨p, _, pk, by simp, Phrase.package_iff.2 ⟨hp, fun _ => by
        simp only [List.append_assoc]; exact hpackage⟩,
      q, _, im, rfl, Phrase.imports_iff.2 ⟨hq, by
        simp only [List.append_assoc]; exact himport⟩,
      modifierWords ms, _, ms, rfl, ⟨rfl,hmodifier⟩, _, rfl, n.text, _, rfl,
      t, _, _, rfl, Phrase.superclass_iff.2 ⟨ht, fun _ => by
        simp only [List.append_assoc]; exact hextends⟩,
      u, _, _, rfl, Phrase.interfaces_iff.2 hu, _, rfl, _, [], declared, (List.append_nil _).symm,
      ⟨v, rfl, hv⟩, n, rfl, o, rfl, ns, rfl, rfl, rfl⟩

/-- Where a token is left, a declaration is read. -/
theorem nextDeclaration (hs : s.Visible) (hn : s.unread ≠ []) :
    Reads nextDeclaration s fun p o _ => ∃ c, o = some c ∧ DerivesClass p c := by
  have hr : Reader.nextDeclaration.run s =
      (if (s.cursor.peek? 0).isNone = true then Pure.pure none else do
        let c ← Reader.classDecl
        Reader.record (.declaration c.name c.fields.length c.methods.length)
        return some c : Reader (Option ClassDecl)).run s := rfl
  apply of_run_eq _ hr
  split_ifs with h
  · exact absurd (s.peek?_zero_eq_none_iff.1 (by simpa using h)) hn
  · refine ((classDecl hs).bind fun c _ t ht _ _ => bind_record ht fun u hu _ =>
      pure hu (some c)).congr fun p o us _ => ?_
    rw [Phrase.andThen_nil]
    constructor
    · rintro ⟨c, hp, rfl⟩
      exact ⟨c,rfl,hp⟩
    · rintro ⟨c, rfl, hp⟩
      exact ⟨c,hp,rfl⟩

end Reader.Reads
end ClassText
