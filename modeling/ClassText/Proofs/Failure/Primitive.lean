import ClassText.Proofs.Failure.Basic
import ClassText.Proofs.Reader.Primitive

/-! Where the single steps of a reader stop: one token or none, and the refusals. -/
namespace ClassText.Reader.Accords

open Grammar

variable {α β : Type} {p : List Token} {more : List Located} {s : Reading}

/-- The input ends where any of these could have come. -/
theorem tooFew {xs : List Expected} (r' : Reader α) (hs : s.cursor.ahead = []) (hp : Viable p)
    (h : ∀ x ∈ xs, ∀ w, x.Admits w → Viable (p ++ w)) : Accords p more (tooFew xs) r' s :=
  ⟨.stay, .inl (.inl hs), [], rfl, by rw [List.append_nil]; exact .tooFew hs hp h⟩

theorem tooFewInBody (r' : Reader α) (hs : s.cursor.ahead = []) (hp : Viable p) :
    Accords p more tooFewInBody r' s :=
  ⟨.stay, .inl (.inl hs), [], rfl, by rw [List.append_nil]; exact .inBody hs hp⟩

theorem viable_of_admits {x : Expected} (h : ∀ w, x.Admits w → Viable (p ++ w)) : Viable p := by
  obtain ⟨w, hw⟩ := x.exists_admits
  exact (h w hw).beginning (List.prefix_append p w)

theorem ended {x : Expected} (r' : Reader α) (hs : s.cursor.ahead = [])
    (h : ∀ w, x.Admits w → Viable (p ++ w)) : Accords p more (Reader.tooFew [x]) r' s := by
  refine tooFew r' hs (viable_of_admits h) fun y hy => ?_
  obtain rfl := List.mem_singleton.1 hy
  exact h

/-- The input ends where two tokens could have come. -/
theorem endedBefore {t u : Token} (r' : Reader α) (hs : s.cursor.ahead = []) (ht : Viable (p ++ [t]))
    (hu : Viable (p ++ [u])) : Accords p more (Reader.tooFew [.token t, .token u]) r' s := by
  refine tooFew r' hs (ht.beginning (List.prefix_append p _)) fun x hx w hw => ?_
  obtain rfl | hx := List.mem_cons.1 hx
  · obtain rfl : w = [t] := hw
    exact ht
  · obtain rfl := List.mem_singleton.1 hx
    obtain rfl : w = [u] := hw
    exact hu

/-- Something else stands where this could have come. -/
theorem unexpected {x : Expected} (h : ∀ w, x.Admits w → Viable (p ++ w)) :
    Accords p more (unexpected x : Reader α) (unexpected x) s := by
  have hr (t : Reading) : (Reader.unexpected x : Reader α).run t =
      (refuse x (t.cursor.get? 0)).run t := rfl
  have hrefuse : Accords p more (refuse x (s.cursor.get? 0) : Reader α)
      (refuse x ((s.extend more).cursor.get? 0)) s := by
    cases hs : s.cursor.ahead with
    | nil =>
      have hc : s.cursor.get? 0 = none := by simp [TokenCursor.get?, hs]
      rw [hc]
      exact ended _ hs h
    | cons l ls =>
      have hc : s.cursor.get? 0 = some l := by simp [TokenCursor.get?, hs]
      have hc' : (s.extend more).cursor.get? 0 = some l := by
        simp [TokenCursor.get?, Reading.extend, hs]
      rw [hc, hc']
      exact ⟨.stay, .inr rfl, [], rfl, by rw [List.append_nil]; exact .unexpected hc h⟩
  exact hrefuse.of_run_eq (hr s) (hr _)

theorem bind_get {f f' : Reading → Reader α} (h : Accords p more (f s) (f' (s.extend more)) s) :
    Accords p more (get >>= f) (get >>= f') s :=
  h.of_run_eq rfl rfl

theorem bind_peek {f f' : Option Token → Reader α} {n : Nat} (hn : n < s.cursor.ahead.length)
    (h : Accords p more (f (s.cursor.peek? n)) (f' (s.cursor.peek? n)) s) :
    Accords p more (peek? n >>= f) (peek? n >>= f') s := by
  refine h.of_run_eq rfl ?_
  rw [← Reading.peek?_extend hn]
  rfl

/-- The current token is the same with more tokens behind the input, unless there is none. -/
theorem bind_current {f f' : Option Token → Reader α}
    (h : Accords p more (f (s.cursor.peek? 0)) (f' (s.cursor.peek? 0)) s) :
    Accords p more (current? >>= f) (current? >>= f') s := by
  by_cases hs : s.cursor.ahead = []
  · have h' : Accords p more (current? >>= f) (f' (s.cursor.peek? 0)) s := h.of_run_eq rfl rfl
    exact of_nil _ h' hs
  · exact bind_peek (List.length_pos_iff.2 hs) h

theorem bind_sees {f f' : Bool → Reader α} {t : Token}
    (h : Accords p more (f (s.cursor.peek? 0 = some t)) (f' (s.cursor.peek? 0 = some t)) s) :
    Accords p more (sees t >>= f) (sees t >>= f') s := by
  have hb : Accords p more (current? >>= fun o => f (o = some t))
      (current? >>= fun o => f' (o = some t)) s := bind_current h
  exact hb.of_run_eq rfl rfl

theorem advance_extend (h : s.cursor.ahead ≠ []) :
    (s.extend more).advance = s.advance.extend more := by
  obtain ⟨⟨b, ls⟩, ms⟩ := s
  cases ls with
  | nil => exact absurd rfl h
  | cons l ls => rfl

theorem ahead_ne_nil {t : Token} (h : s.cursor.peek? 0 = some t) : s.cursor.ahead ≠ [] := by
  intro hs
  rw [Reading.peek?_zero_eq_none.2 hs] at h
  cases h

theorem skip {t : Token} (ht : t.parts = [t]) (h : s.cursor.peek? 0 = some t) :
    Accords p more skip skip s := by
  refine ⟨TokenCursor.moves_advance h ht, .inr ?_⟩
  have hr : Reader.skip.run (s.extend more) = .ok () (s.extend more).advance := rfl
  rw [hr, advance_extend (ahead_ne_nil h)]
  rfl

theorem bind_skip {f f' : Unit → Reader α} (hs : s.Visible) {t : Token} (ht : t.parts = [t])
    (hc : s.cursor.peek? 0 = some t)
    (h : ∀ u, u.Visible → s.unread = t :: u.unread → Accords (p ++ [t]) more (f ()) (f' ()) u) :
    Accords p more (Reader.skip >>= f) (Reader.skip >>= f') s := by
  refine (skip ht hc).bind (Reads.skip hs ht hc) fun _ q u hu hq hP => ?_
  obtain rfl : q = [t] := hP
  exact h u hu hq

theorem expect {t : Token} (ht : t.parts = [t]) (hp : Viable (p ++ [t])) :
    Accords p more (expect t) (expect t) s := by
  apply bind_sees
  by_cases h : s.cursor.peek? 0 = some t
  · simp only [h, decide_true, if_true]
    exact skip ht h
  · simp only [h, decide_false, Bool.false_eq_true, if_false]
    refine unexpected fun w hw => ?_
    obtain rfl : w = [t] := hw
    exact hp

theorem bind_expect {f f' : Unit → Reader α} (hs : s.Visible) {t : Token} (ht : t.Plain)
    (hp : Viable (p ++ [t]))
    (h : ∀ u, u.Visible → s.unread = t :: u.unread → Accords (p ++ [t]) more (f ()) (f' ()) u) :
    Accords p more (Reader.expect t >>= f) (Reader.expect t >>= f') s := by
  refine (expect ht.1 hp).bind (Reads.expect hs ht) fun _ q u hu hq hP => ?_
  obtain rfl : q = [t] := hP
  exact h u hu hq

theorem accept (hs : s.Visible) {t : Token} (ht : t.parts = [t]) :
    Accords p more (accept t) (accept t) s := by
  apply bind_sees
  by_cases h : s.cursor.peek? 0 = some t
  · simp only [h, decide_true, if_true]
    exact bind_skip hs ht h fun _ _ _ => pure true
  · simp only [h, decide_false, Bool.false_eq_true, if_false]
    exact pure false

/-- What follows a token that is there, or what stands in its place. -/
theorem ifAccept {A A' B B' : Reader α} (hs : s.Visible) {t : Token} (ht : t.Plain)
    (hA : ∀ u, u.Visible → s.unread = t :: u.unread → Accords (p ++ [t]) more A A' u)
    (hB : ∀ u, u.Visible → s.unread = u.unread → s.unread.head? ≠ some t →
      Accords p more B B' u) :
    Accords p more (do if ← Reader.accept t then A else B)
      (do if ← Reader.accept t then A' else B') s := by
  refine (accept hs ht.1).bind (Reads.accept hs ht) fun there q u hu hq hP => ?_
  cases there with
  | true =>
    obtain rfl : q = [t] := hP
    exact hA u hu hq
  | false =>
    obtain ⟨rfl, hn⟩ := hP
    rw [List.append_nil]
    exact hB u hu hq (by rw [hq]; exact hn)

theorem identifier (hs : s.Visible) {role : String}
    (hp : ∀ n : Name, Viable (p ++ [.identifier n.text])) :
    Accords p more (identifier role) (identifier role) s := by
  have refused : Accords p more (Reader.unexpected (.identifier role) : Reader String)
      (Reader.unexpected (.identifier role)) s := by
    refine unexpected fun w hw => ?_
    obtain ⟨n, rfl⟩ := hw
    exact hp n
  apply bind_current
  cases hc : s.cursor.peek? 0 with
  | none => exact refused
  | some t =>
    cases t with
    | identifier name => exact bind_skip hs rfl hc fun _ _ _ => pure name
    | _ => exact refused

/-- A name that is read is never blank. -/
theorem bind_identifier {f f' : String → Reader α} (hs : s.Visible) {role : String}
    (hp : ∀ n : Name, Viable (p ++ [.identifier n.text]))
    (h : ∀ (n : Name) u, u.Visible → s.unread = .identifier n.text :: u.unread →
      Accords (p ++ [.identifier n.text]) more (f n.text) (f' n.text) u) :
    Accords p more (Reader.identifier role >>= f) (Reader.identifier role >>= f') s := by
  refine (identifier hs hp).bind (Reads.identifier hs role) fun name q u hu hq hP => ?_
  obtain rfl : q = [.identifier name] := hP
  exact h ⟨name, hs name (by rw [hq]; exact List.mem_cons_self)⟩ u hu hq

theorem splitCurrent {l : Located} {ls : List Located} {x left : Symbol}
    (hs : s.cursor.ahead = l :: ls) (hl : l.token = .symbol x) (hx : x.afterAngle? = some left) :
    Accords p more (splitCurrent (.symbol left)) (splitCurrent (.symbol left)) s := by
  have hs' : (s.extend more).cursor.ahead = l :: (ls ++ more) := by simp [Reading.extend, hs]
  unfold Accords
  rw [Reads.run_splitCurrent hs, Reads.run_splitCurrent hs']
  obtain ⟨⟨b, _⟩, ms⟩ := s
  cases hs
  exact ⟨.split hl hx .stay, .inr rfl⟩

theorem closingAngle (hp : Viable (p ++ [.symbol .gt])) :
    Accords p more closingAngle closingAngle s := by
  apply bind_current
  cases hs : s.cursor.ahead with
  | nil =>
    rw [Reading.peek?_zero_eq_none.2 hs]
    exact expect rfl hp
  | cons l ls =>
    rw [Reading.peek?_zero_of_ahead hs]
    cases hl : l.token with
    | symbol x =>
      dsimp only
      cases hx : x.afterAngle? with
      | none => exact expect rfl hp
      | some left => exact splitCurrent hs hl hx
    | _ => exact expect rfl hp

theorem bind_closingAngle {f f' : Unit → Reader α} (hs : s.Visible) (hp : Viable (p ++ [.symbol .gt]))
    (h : ∀ u, u.Visible → Accords (p ++ [.symbol .gt]) more (f ()) (f' ()) u) :
    Accords p more (Reader.closingAngle >>= f) (Reader.closingAngle >>= f') s := by
  refine (closingAngle hp).bind (Reads.closingAngle hs) fun _ q u hu _ hP => ?_
  obtain rfl : q = [.symbol .gt] := hP
  exact h u hu

/-- What is built does not matter, nor whether it can be. -/
theorem build (made : Except Fault α) : Accords p more (build made) (build made) s := by
  cases made with
  | ok a => exact pure a
  | error f => trivial

theorem bind_build {made : Except Fault α} {f f' : α → Reader β}
    (h : ∀ a, made = .ok a → Accords p more (f a) (f' a) s) :
    Accords p more (Reader.build made >>= f) (Reader.build made >>= f') s := by
  cases hm : made with
  | ok a => exact (h a hm).of_run_eq rfl rfl
  | error f => trivial

theorem bind_record {f f' : Unit → Reader α} {m : Milestone}
    (h : ∀ u, u.cursor = s.cursor → Accords p more (f ()) (f' ()) u) :
    Accords p more (Reader.record m >>= f) (Reader.record m >>= f') s :=
  h { s with milestones := m :: s.milestones } rfl

/-- The question whether the end is reached comes before the one what stands there. -/
theorem unlessAtEnd {x x' : Reader Unit} {f f' : Unit → Reader α}
    (hx : Reads x s fun _ _ _ => False) (hend : s.cursor.ahead = [] → Accords p more x x' s)
    (h : s.cursor.ahead ≠ [] → Accords p more (f ()) (f' ()) s) :
    Accords p more (do if ← atEnd then (x >>= f) else f ())
      (do if ← atEnd then (x' >>= f') else f' ()) s := by
  have hb : Accords p more (current? >>= fun o => if o.isNone = true then (x >>= f) else f ())
      (current? >>= fun o => if o.isNone = true then (x' >>= f') else f' ()) s := by
    apply bind_current
    cases hc : s.cursor.peek? 0 with
    | none => exact bind_refused (hend (Reading.peek?_zero_eq_none.1 hc)) hx
    | some t => exact h (ahead_ne_nil hc)
  exact hb.of_run_eq rfl rfl

end ClassText.Reader.Accords
