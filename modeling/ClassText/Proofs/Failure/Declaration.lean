import ClassText.Proofs.Failure.Member
import ClassText.Proofs.Reader.Declaration

/-! Where the reader of declarations stops. Before a class nothing has been consumed, and whatever part
of it has been read can be gone on with. -/
namespace ClassText

open Grammar

namespace Phrase

variable {p us : List Token}

/-- A word that shows something. -/
def Named (p : List Token) (x : String) : Prop := ∃ n : Name, n.text = x ∧ DerivesName p n

theorem further_names {sign : Symbol} {xs : List String} (h : Further Named sign p xs) :
    ∃ ns, Further DerivesName sign p ns := by
  induction h with
  | nil => exact ⟨[], .nil⟩
  | cons h _ ih =>
    obtain ⟨n, -, hn⟩ := h
    obtain ⟨ns, hns⟩ := ih
    exact ⟨n :: ns, .cons hn hns⟩

/-- Words that show something are names. -/
theorem Rounds.names {sign : Symbol} {xs : List String} (h : Rounds (behind (.symbol sign) word) p xs us)
    (hp : ∀ name, .identifier name ∈ p → Text.isBlankText name = false) :
    ∃ ns, Further DerivesName sign p ns := by
  obtain ⟨ns, rfl⟩ := Name.exists_map_text fun x hx => hp x (mem_of_rounds_word h hx)
  have hword : Further (fun p x => p = [.identifier x]) sign p (ns.map (·.text)) :=
    Rounds.further (D := fun p x => p = [.identifier x]) (fun _ _ _ h => h) h
  exact ⟨ns, further_word_iff.1 hword⟩

theorem superclass_names {o : Option String} (h : behind (.keyword .«extends») word p o us)
    (hp : ∀ name, .identifier name ∈ p → Text.isBlankText name = false) :
    ∃ n, Optional DerivesSuperclass p n := by
  cases o with
  | none =>
    obtain ⟨rfl, -⟩ := h
    exact ⟨none, .none⟩
  | some x =>
    obtain ⟨_, rfl, rfl⟩ := h
    let n : Name := ⟨x, hp x (by simp)⟩
    exact ⟨some n, .some (.intro (.intro n))⟩

theorem interfaces_names {xs : List String} (h : interfaces p xs us)
    (hp : ∀ name, .identifier name ∈ p → Text.isBlankText name = false) :
    ∃ ns, DerivesInterfaces p ns := by
  obtain ⟨x, q, ys, rfl, hq, rfl⟩ | ⟨-, rfl, rfl⟩ := h
  · let n : Name := ⟨x, hp x (by simp)⟩
    obtain ⟨ns, hns⟩ := hq.names fun name hn => hp name (by simp [hn])
    exact ⟨n :: ns, .some (.intro (.intro n) hns)⟩
  · exact ⟨[], .nil⟩

end Phrase

/-- Of what has been consumed, no identifier is blank either. -/
theorem Reading.Visible.consumed {s t : Reading} (hs : s.Visible) {q : List Token}
    (h : s.unread = q ++ t.unread) (name : String) (hn : .identifier name ∈ q) :
    Text.isBlankText name = false :=
  hs name (by rw [h]; exact List.mem_append_left _ hn)

namespace Reader.Accords

variable {p : List Token} {more : List Located} {s : Reading}

/-- Further names behind a sign, wherever one more of them may follow the sign. -/
theorem words (hs : s.Visible) {role : String} {sign : Symbol} (hsign : (Token.symbol sign).Plain)
    (hp : ∀ q ns, Further DerivesName sign q ns → Opens DerivesName (p ++ q ++ [.symbol sign])) :
    Accords p more (Reader.eachBehind (.symbol sign) (Reader.identifier role))
      (Reader.eachBehind (.symbol sign) (Reader.identifier role)) s := by
  have named : ∀ t : Reading, t.Visible →
      Reads (Reader.identifier role) t fun q x _ => Phrase.Named q x := fun t ht =>
    (Reads.identifier ht role).congr fun q x us hq => by
      constructor
      · rintro rfl
        let n : Name := ⟨x, ht x (by rw [hq]; exact List.mem_cons_self)⟩
        exact ⟨n, rfl, .intro n⟩
      · rintro ⟨n, rfl, ⟨⟩⟩
        rfl
  refine eachBehind (D := Phrase.Named) hsign (fun _ _ _ h => h) hs (fun t ht _ => named t ht)
    (fun r t hr ht _ => identifier ht fun n => hr _ _ ⟨n, rfl, .intro n⟩) fun q xs hq w x hw => ?_
  obtain ⟨ns, hns⟩ := Phrase.further_names hq
  obtain ⟨n, -, hn⟩ := hw
  exact hp q ns hns w n hn

theorem qualifiedName (hs : s.Visible) {role : String}
    (hp : ∀ w q, Separated DerivesName .dot w q → Viable (p ++ w ++ [.symbol .semicolon])) :
    Accords p more (qualifiedName role) (qualifiedName role) s := by
  have first (n : Name) : Viable (p ++ [.identifier n.text]) :=
    (hp _ _ (.intro (.intro n) .nil)).beginning (by simp)
  refine bind_identifier hs first fun n t ht _ => ?_
  have hdot : ∀ q ns, Further DerivesName .dot q ns →
      Opens DerivesName (p ++ [.identifier n.text] ++ q ++ [.symbol .dot]) := fun q ns hq w m hw =>
    (hp _ _ (.intro (.intro n) (hq.snoc hw))).beginning (by simp)
  refine (words ht (by decide) hdot).bind (Reads.words ht role (by decide)) fun xs q u hu htu hq => ?_
  obtain ⟨ns, hns⟩ := hq.names (ht.consumed htu)
  have hend := hp _ _ (.intro (.intro n) hns)
  exact bind_expect hu (by decide) (by simpa using hend) fun _ _ _ => build _

/-- A word, and a dotted name behind it. -/
theorem oneQualified (hs : s.Visible) {role : String} {k : Keyword}
    (hp : Opens (DerivesQualified k) p) :
    Accords p more
      (do if ← Reader.accept (.keyword k) then return some (← Reader.qualifiedName role) else return none)
      (do if ← Reader.accept (.keyword k) then return some (← Reader.qualifiedName role) else return none)
      s := by
  refine ifAccept hs (Token.plain_keyword k) (fun u hu _ => ?_) fun _ _ _ _ => pure none
  refine (qualifiedName hu fun w q hq => ?_).bind (Reads.qualifiedName hu role) fun q _ _ _ _ _ =>
    pure (some q)
  cases hq with
  | intro hn hns => simpa using hp _ _ (.intro (.intro hn hns))

theorem imports (hs : s.Visible)
    (hp : ∀ q im, Sequence (DerivesQualified .«import») q im →
      Opens (DerivesQualified .«import») (p ++ q)) : Accords p more imports imports s := by
  refine collect (P := Phrase.behind (.keyword .«import») Phrase.qualifiedName)
    (I := fun r => ∃ q im, r = p ++ q ∧ Sequence (DerivesQualified .«import») q im) ?_ ?_ hs ?_ ?_
    ⟨[], [], by simp, .nil⟩
  · rintro q a us ⟨r, rfl, -⟩
    exact List.cons_ne_nil _ _
  · rintro _ w a us ⟨q, im, rfl, hq⟩ hw
    exact ⟨_, _, List.append_assoc .., hq.snoc (Phrase.behind_qualifiedName_iff.1 hw)⟩
  · exact fun t ht _ => Reads.oneBehind (by decide) ht fun _ hu _ => Reads.qualifiedName hu _
  · rintro _ t ⟨q, im, rfl, hq⟩ ht -
    exact oneQualified ht (hp q im hq)

theorem superclass (hs : s.Visible) (hp : Opens DerivesSuperclass p) :
    Accords p more superclass superclass s := by
  refine ifAccept hs (by decide) (fun u hu _ => ?_) fun _ _ _ _ => pure none
  refine (identifier hu fun n => ?_).bind (Reads.identifier hu _) fun x _ _ _ _ _ => pure (some x)
  simpa using hp _ _ (.intro (.intro n))

theorem interfaces (hs : s.Visible) (hp : Opens DerivesInterfaces p) :
    Accords p more interfaces interfaces s := by
  refine ifAccept hs (by decide) (fun u hu _ => ?_) fun _ _ _ _ => pure []
  have first (n : Name) : Viable (p ++ [.keyword .implements] ++ [.identifier n.text]) := by
    simpa using hp _ _ (.some (.intro (.intro n) .nil))
  refine bind_identifier hu first fun n v hv _ => ?_
  have hcomma : ∀ q ns, Further DerivesName .comma q ns → Opens DerivesName
      (p ++ [.keyword .implements] ++ [.identifier n.text] ++ q ++ [.symbol .comma]) :=
    fun q ns hq w m hw => by simpa using hp _ _ (.some (.intro (.intro n) (hq.snoc hw)))
  exact (words hv (by decide) hcomma).bind (Reads.words hv _ (by decide)) fun xs _ _ _ _ _ =>
    pure (n.text :: xs)

/-- The parts of a class, in turn. -/
theorem viable_class (hp : Opens DerivesClass p) {a b d e f : List Token}
    {pk : Option QualifiedName} {im : List QualifiedName} {o : Option Name} {ns : List Name}
    {declared : List Member} (ha : Optional (DerivesQualified .package) a pk)
    (hb : Sequence (DerivesQualified .«import») b im) (ms : List Modifier) (n : Name)
    (hd : Optional DerivesSuperclass d o) (he : DerivesInterfaces e ns)
    (hf : Sequence DerivesMember f declared) :
    Viable (p ++ a ++ b ++ modifierWords ms ++ [.keyword .«class»] ++ [.identifier n.text] ++ d ++ e ++
      [.symbol .leftBrace] ++ f ++ [.symbol .rightBrace]) := by
  have hhead : DerivesHead _ ⟨pk, im, ms, n, o, ns, declared.filterMap Member.field?,
    declared.filterMap Member.method?⟩ := .intro _ ha hb (.intro n) hd he
  simpa using hp _ _ (.intro hhead hf rfl rfl)

/-- A class, part by part. Behind each part the rest may stand with nothing optional in it. -/
theorem classDecl (hs : s.Visible) (hp : Opens DerivesClass p) :
    Accords p more classDecl classDecl s := by
  have hpackage : Opens (DerivesQualified .package) p := fun w q hw =>
    (viable_class hp (.some hw) .nil [] someName .none .nil .nil).beginning (by simp)
  refine (oneQualified hs hpackage).bind (Reads.package hs) fun pk a t ht _ ha => ?_
  have ha := (Phrase.package_iff.1 ha).1
  refine (imports ht fun b im hb w q hw => (viable_class hp ha (hb.snoc hw) [] someName .none .nil
    .nil).beginning (by simp)).bind (Reads.imports ht) fun im b u hu _ hb => ?_
  have hb := (Phrase.imports_iff.1 hb).1
  refine (modifiers hu).bind (Reads.modifiers hu) fun ms w v hv _ hw => ?_
  obtain ⟨rfl, -⟩ := hw
  have hclass := viable_class hp ha hb ms someName .none .nil .nil
  refine bind_expect hv (by decide) (hclass.beginning (by simp)) fun t ht _ => ?_
  refine bind_identifier ht (fun n => (viable_class hp ha hb ms n .none .nil .nil).beginning (by simp))
    fun n t ht _ => ?_
  refine (superclass ht fun d o hd => (viable_class hp ha hb ms n (.some hd) .nil .nil).beginning
    (by simp)).bind (Reads.superclass ht) fun parent d u hu htu hd => ?_
  obtain ⟨o, hd⟩ := Phrase.superclass_names hd (ht.consumed htu)
  refine (interfaces hu fun e ns he => (viable_class hp ha hb ms n hd he .nil).beginning
    (by simp)).bind (Reads.interfaces hu) fun types e v hv huv he => ?_
  obtain ⟨ns, he⟩ := Phrase.interfaces_names he (hu.consumed huv)
  have hbrace := viable_class hp ha hb ms n hd he .nil
  refine bind_expect hv (by decide) (hbrace.beginning (by simp)) fun w hw _ => ?_
  refine (members hw fun f declared hf => ?_).bind (Reads.members hw) fun declared _ _ _ _ _ => ?_
  · exact viable_class hp ha hb ms n hd he hf
  · exact bind_build fun _ _ => bind_build fun _ _ => bind_build fun _ _ => pure _

/-- A class may stand where nothing has been consumed. -/
theorem nextDeclaration (hs : s.Visible) : Accords [] more nextDeclaration nextDeclaration s := by
  have hclass : Opens DerivesClass [] := fun w c hw => ⟨[], c, by simpa using hw⟩
  have hb : Accords [] more (current? >>= fun o => if o.isNone = true then Pure.pure none else do
        let c ← Reader.classDecl
        Reader.record (.declaration c.name c.fields.length c.methods.length)
        return some c)
      (current? >>= fun o => if o.isNone = true then Pure.pure none else do
        let c ← Reader.classDecl
        Reader.record (.declaration c.name c.fields.length c.methods.length)
        return some c) s := by
    apply bind_current
    split_ifs
    · exact pure none
    · exact (classDecl hs hclass).bind (Reads.classDecl hs) fun c _ _ _ _ _ =>
        bind_record fun _ _ => pure (some c)
  exact hb.of_run_eq rfl rfl

end Reader.Accords
end ClassText
