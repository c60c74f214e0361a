import ClassText.Proofs.Reader.Phrase

/-! What the single steps of a reader read: one token or none, and the checks of what is built from
them. -/
namespace ClassText.Reader.Reads

variable {s : Reading}

/-- The tokens are refused where the phrase allows nothing. -/
theorem tooFew {P : Phrase α} (hs : s.Visible) (es : List Expected)
    (hP : ∀ p b us, s.unread = p ++ us → ¬ P p b us) : Reads (tooFew es) s P :=
  ⟨hs, hP⟩

theorem tooFewInBody {P : Phrase α} (hs : s.Visible)
    (hP : ∀ p b us, s.unread = p ++ us → ¬ P p b us) : Reads tooFewInBody s P :=
  ⟨hs, hP⟩

theorem unexpected {P : Phrase α} (hs : s.Visible) (e : Expected)
    (hP : ∀ p b us, s.unread = p ++ us → ¬ P p b us) : Reads (unexpected e) s P := by
  have hr : (Reader.unexpected e : Reader α).run s = (refuse e (s.cursor.get? 0)).run s := rfl
  apply of_run_eq _ hr
  cases s.cursor.get? 0 with
  | none => exact ⟨hs,hP⟩
  | some l => exact ⟨hs,hP⟩

theorem bind_current {f : Option Token → Reader α} {P : Phrase α}
    (h : Reads (f (s.cursor.peek? 0)) s P) : Reads (current? >>= f) s P :=
  h.of_run_eq rfl

theorem bind_peek {f : Option Token → Reader α} {P : Phrase α} (n : Nat)
    (h : Reads (f (s.cursor.peek? n)) s P) : Reads (peek? n >>= f) s P :=
  h.of_run_eq rfl

theorem bind_get {f : Reading → Reader α} {P : Phrase α} (h : Reads (f s) s P) :
    Reads (get >>= f) s P :=
  h.of_run_eq rfl

theorem bind_sees {f : Bool → Reader α} {P : Phrase α} {t : Token} (ht : t.Plain)
    (h : Reads (f (s.unread.head? = some t)) s P) : Reads (sees t >>= f) s P := by
  simp only [Reading.head?_unread_iff ht] at h
  exact h.of_run_eq rfl

/-- Nothing comes of a phrase at the end of the input, so the question whether it is reached may be
passed over. -/
theorem unlessAtEnd {x : Reader Unit} {f : Unit → Reader α} {P : Phrase α} (h : Reads (f ()) s P)
    (hx : Reads x s fun _ _ _ => False) (hP : ∀ b, ¬ P [] b []) :
    Reads (do if ← atEnd then (x >>= f) else f ()) s P := by
  have hr : (do if ← atEnd then (x >>= f) else f ()).run s =
      (if (s.cursor.peek? 0).isNone = true then (x >>= f) else f ()).run s := rfl
  apply of_run_eq _ hr
  split_ifs with hn
  · have hu : s.unread = [] := by simpa [Reading.peek?_zero_eq_none_iff] using hn
    refine (hx.bind (Q := fun _ => P) fun _ _ _ _ _ h => h.elim).congr fun p b us hp => ?_
    obtain ⟨rfl, rfl⟩ := List.append_eq_nil_iff.1 (hp.symm.trans hu)
    constructor
    · rintro ⟨_, _, _, _, h, _⟩
      exact h.elim
    · exact fun h => (hP b h).elim
  · exact h

theorem record (hs : s.Visible) (m : Milestone) : Reads (record m) s fun p _ _ => p = [] := by
  refine ⟨hs, ⟨[],rfl,rfl⟩, ?_⟩
  rintro p b us hp rfl
  exact ⟨rfl,hp.symm⟩

/-- Milestones are not part of what is read. -/
theorem bind_record {f : Unit → Reader α} {P : Phrase α} (hs : s.Visible) {m : Milestone}
    (h : ∀ u, u.Visible → u.unread = s.unread → Reads (f ()) u P) :
    Reads (Reader.record m >>= f) s P := by
  refine ((record hs m).bind (Q := fun _ => P) fun _ p u hu hp hn => h u hu ?_).congr
    fun p b us _ => ?_
  · rw [hp, show p = [] from hn, List.nil_append]
  · constructor
    · rintro ⟨_, q, _, rfl, rfl, hq⟩
      exact hq
    · exact fun hp => ⟨[], p, (), rfl, rfl, hp⟩

theorem bind_pure {x : Reader α} {P : Phrase α} (hx : Reads x s P) (f : α → β) :
    Reads (x >>= fun a => Pure.pure (f a)) s fun p b us => ∃ a, P p a us ∧ b = f a := by
  refine (hx.bind fun a _ u hu _ _ => pure hu (f a)).congr fun p b us _ => ?_
  exact Phrase.andThen_nil

theorem skip (hs : s.Visible) {t : Token} (ht : t.parts = [t]) (h : s.cursor.peek? 0 = some t) :
    Reads skip s fun p _ _ => p = [t] := by
  have hu : s.unread = [t] ++ s.advance.unread := Reading.unread_eq_cons ht h
  refine ⟨hs.of_suffix hu, ⟨[t], hu, rfl⟩, ?_⟩
  rintro p b us hp rfl
  exact ⟨rfl, List.append_cancel_left (hp.symm.trans hu)⟩

/-- What is read behind a token that a reader takes. -/
theorem bind_token {x : Reader Unit} {f : Unit → Reader α} {P : Phrase α} {t : Token}
    (hx : Reads x s fun p _ _ => p = [t])
    (h : ∀ u, u.Visible → s.unread = t :: u.unread → Reads (f ()) u P) :
    Reads (x >>= f) s (Phrase.after t P) := by
  refine (hx.bind fun _ p u hu hp ht => h u hu ?_).congr fun p b us _ => ?_
  · rw [hp, show p = [t] from ht, List.singleton_append]
  · exact Phrase.token_andThen

theorem bind_skip {f : Unit → Reader α} {P : Phrase α} (hs : s.Visible) {t : Token}
    (ht : t.parts = [t]) (hc : s.cursor.peek? 0 = some t)
    (h : ∀ u, u.Visible → s.unread = t :: u.unread → Reads (f ()) u P) :
    Reads (Reader.skip >>= f) s (Phrase.after t P) :=
  bind_token (skip hs ht hc) h

/-- Where a token can only be seen as itself, exactly it is expected. -/
theorem expect_of_iff (hs : s.Visible) {t : Token} (ht : t.parts = [t])
    (hi : s.unread.head? = some t ↔ s.cursor.peek? 0 = some t) :
    Reads (Reader.expect t) s fun p _ _ => p = [t] := by
  have hr : (Reader.expect t).run s =
      (if decide (s.cursor.peek? 0 = some t) then Reader.skip
        else Reader.unexpected (.token t)).run s := rfl
  apply of_run_eq _ hr
  simp only [decide_eq_true_eq]
  split_ifs with h
  · exact skip hs ht h
  · apply unexpected hs
    rintro p b us hp rfl
    exact h (hi.1 (by rw [hp]; rfl))

theorem expect (hs : s.Visible) {t : Token} (ht : t.Plain) :
    Reads (expect t) s fun p _ _ => p = [t] :=
  expect_of_iff hs ht.1 (Reading.head?_unread_iff ht)

theorem bind_expect {f : Unit → Reader α} {P : Phrase α} (hs : s.Visible) {t : Token} (ht : t.Plain)
    (h : ∀ u, u.Visible → s.unread = t :: u.unread → Reads (f ()) u P) :
    Reads (Reader.expect t >>= f) s (Phrase.after t P) :=
  bind_token (expect hs ht) h

theorem accept (hs : s.Visible) {t : Token} (ht : t.Plain) :
    Reads (accept t) s fun p b us =>
      if b then p = [t] else p = [] ∧ us.head? ≠ some t := by
  apply bind_sees ht
  by_cases h : s.unread.head? = some t
  · simp only [h, decide_true, if_true]
    have hc := (Reading.head?_unread_iff ht).1 h
    refine (bind_skip hs ht.1 hc fun u hu _ => pure hu true).congr fun p b us hp => ?_
    constructor
    · rintro ⟨_, rfl, rfl, rfl⟩
      rfl
    · cases b with
      | true => exact fun hq => ⟨[], hq, rfl, rfl⟩
      | false => rintro ⟨rfl, hn⟩; exact absurd (by simpa [hp] using h) hn
  · simp only [h, decide_false, Bool.false_eq_true, if_false]
    refine (pure hs false).congr ?_
    intro p b us hp
    constructor
    · rintro ⟨rfl, rfl⟩
      simpa [hp] using h
    · cases b with
      | true => rintro rfl; exact absurd (by rw [hp]; rfl) h
      | false => rintro ⟨rfl, -⟩; exact ⟨rfl,rfl⟩

/-- What follows a token that is there, or what stands in its place. -/
theorem ifAccept {A B : Reader α} {P Q : Phrase α} {t : Token} (hs : s.Visible) (ht : t.Plain)
    (hA : ∀ u, u.Visible → s.unread = t :: u.unread → Reads A u P)
    (hB : ∀ u, u.Visible → s.unread = u.unread → s.unread.head? ≠ some t → Reads B u Q) :
    Reads (do if ← Reader.accept t then A else B) s fun p b us =>
      (∃ q, p = t :: q ∧ P q b us) ∨ ((p ++ us).head? ≠ some t ∧ Q p b us) := by
  refine ((accept hs ht).bind (Q := fun there => if there then P else Q) ?_).congr ?_
  · intro there p u hu hp hP
    cases there with
    | true => exact hA u hu (by rw [hp, show p = [t] from hP]; rfl)
    | false =>
      obtain ⟨rfl, hn⟩ := hP
      exact hB u hu hp (by rw [hp]; exact hn)
  · intro p b us _
    constructor
    · rintro ⟨q, r, there, rfl, hq, hr⟩
      cases there with
      | true => exact .inl ⟨r, by rw [show q = [t] from hq]; rfl, hr⟩
      | false =>
        obtain ⟨rfl, hn⟩ := hq
        exact .inr ⟨hn,hr⟩
    · rintro (⟨q, rfl, hP⟩ | ⟨hn, hQ⟩)
      · exact ⟨[t], q, true, rfl, rfl, hP⟩
      · exact ⟨[], p, false, rfl, ⟨rfl,hn⟩, hQ⟩

theorem identifier (hs : s.Visible) (role : String) :
    Reads (identifier role) s fun p name _ => p = [.identifier name] := by
  apply bind_current
  split
  · next name hc =>
    have hu := Reading.unread_eq_cons (t := .identifier name) rfl hc
    refine (bind_skip hs rfl hc fun u hv _ => pure hv name).congr fun p b us hp => ?_
    constructor
    · rintro ⟨_, rfl, rfl, rfl⟩
      rfl
    · rintro rfl
      obtain ⟨rfl, -⟩ : name = b ∧ _ := by simpa [hu] using hp
      exact ⟨[], rfl, rfl, rfl⟩
  · next hc =>
    apply unexpected hs
    rintro p name us hp rfl
    exact hc name ((Reading.head?_unread_iff ⟨rfl, by simp⟩).1 (by rw [hp]; rfl))

/-- A name that is read is never blank. -/
theorem bind_identifier {f : String → Reader α} {P : String → Phrase α} (hs : s.Visible)
    {role : String} (h : ∀ name u, u.Visible → s.unread = .identifier name :: u.unread →
      Text.isBlankText name = false → Reads (f name) u (P name)) :
    Reads (Reader.identifier role >>= f) s fun p b us =>
      ∃ name q, p = .identifier name :: q ∧ P name q b us := by
  refine ((identifier hs role).bind (Q := P) fun name p u hu hp hn => ?_).congr fun p b us _ => ?_
  · have hs' : s.unread = .identifier name :: u.unread := by
      rw [hp, show p = [.identifier name] from hn, List.singleton_append]
    exact h name u hu hs' (hs name (by rw [hs']; exact List.mem_cons_self))
  · exact Phrase.identifier_andThen

/-- The current token gives way to what is left of it. -/
theorem run_splitCurrent {l : Located} {ls : List Located} (h : s.cursor.ahead = l :: ls)
    (left : Token) : (splitCurrent left).run s =
      .ok () { s with cursor := ⟨s.cursor.behind, l.splitTo left :: ls⟩ } := by
  have hc : s.cursor.splitCurrent left = .ok ⟨s.cursor.behind, l.splitTo left :: ls⟩ := by
    rw [TokenCursor.splitCurrent, h]
  have hr : (splitCurrent left).run s = (do
      let c ← Reader.build (s.cursor.splitCurrent left)
      modify fun r => { r with cursor := c } : Reader Unit).run s := rfl
  rw [hr, hc]
  rfl

/-- Of a compound symbol only the leading `>` is consumed, so that its other parts are left. -/
theorem closingAngle (hs : s.Visible) :
    Reads closingAngle s fun p _ _ => p = [.symbol .gt] := by
  apply bind_current
  rw [TokenCursor.peek?_zero]
  cases ha : s.cursor.ahead with
  | nil => exact expect_of_iff hs rfl (by simp [TokenCursor.peek?_zero, Reading.unread, ha])
  | cons l ls =>
    have hu : s.unread = l.token.parts ++ Token.expand (ls.map (·.token)) := by
      simp [Reading.unread, ha]
    have whole (hl : l.token.parts = [l.token]) :
        Reads (Reader.expect (.symbol .gt)) s fun p _ _ => p = [.symbol .gt] :=
      expect_of_iff hs rfl (by simp [TokenCursor.peek?_zero, ha, hu, hl])
    simp only [List.map_cons, List.head?_cons]
    cases hl : l.token with
    | symbol x =>
      rw [hl] at hu whole
      dsimp only
      cases hx : x.afterAngle? with
      | none => exact whole (by simp [Token.parts, Symbol.parts_of_afterAngle?_none hx])
      | some left =>
        let t : Reading :=
          { s with cursor := ⟨s.cursor.behind, l.splitTo (.symbol left) :: ls⟩ }
        have ht : s.unread = [.symbol .gt] ++ t.unread := by
          rw [hu, Token.parts, Symbol.parts_of_afterAngle? hx]
          rfl
        unfold Reads
        dsimp only
        rw [run_splitCurrent ha]
        refine ⟨hs.of_suffix ht, ⟨_, ht, rfl⟩, ?_⟩
        rintro p b us hp rfl
        exact ⟨rfl, List.append_cancel_left (hp.symm.trans ht)⟩
    | _ => exact whole (by rw [hl]; rfl)

theorem build (hs : s.Visible) {made : Except Fault α} {a : α} (h : made = .ok a) :
    Reads (build made) s fun p b _ => p = [] ∧ b = a := by
  subst h
  exact pure hs a

/-- What is built on a text that has been read as an identifier is built on a name. -/
theorem build_named (hs : s.Visible) {x : String} (hx : Text.isBlankText x = false)
    {made : Except Fault α} (g : Name → α) (h : made = .ok (g ⟨x,hx⟩)) :
    Reads (Reader.build made) s fun p b _ => p = [] ∧ ∃ n : Name, n.text = x ∧ b = g n := by
  refine (build hs h).congr fun p b us _ => and_congr_right fun _ => ?_
  constructor
  · rintro rfl
    exact ⟨_,rfl,rfl⟩
  · rintro ⟨⟨_, _⟩, rfl, rfl⟩
    rfl

/-- What is read after a step that takes no token. -/
theorem bind_untaken {x : Reader α} {f : α → Reader β} {R : α → Prop} {P : α → Phrase β}
    (hx : Reads x s fun p a _ => p = [] ∧ R a) (h : ∀ a u, u.Visible → Reads (f a) u (P a)) :
    Reads (x >>= f) s fun p b us => ∃ a, R a ∧ P a p b us := by
  refine (hx.bind fun a _ u hu _ _ => h a u hu).congr fun p b us _ => ?_
  constructor
  · rintro ⟨_, q, a, rfl, ⟨rfl, ha⟩, hq⟩
    exact ⟨a,ha,hq⟩
  · rintro ⟨a, ha, hp⟩
    exact ⟨[], p, a, rfl, ⟨rfl,ha⟩, hp⟩

theorem bind_name {f : Name → Reader α} {P : Name → Phrase α} (hs : s.Visible) {role x : String}
    (hx : Text.isBlankText x = false) (h : ∀ n u, u.Visible → Reads (f n) u (P n)) :
    Reads (Reader.build (Name.check role x) >>= f) s fun p b us =>
      ∃ n : Name, n.text = x ∧ P n p b us := by
  have hmade : Name.check role x = .ok (id ⟨x,hx⟩) := by simp [Name.check, hx]
  refine bind_untaken ((build_named hs hx id hmade).congr fun p n us _ => ?_) h
  simp

end ClassText.Reader.Reads
