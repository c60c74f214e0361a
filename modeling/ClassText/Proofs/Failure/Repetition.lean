import ClassText.Proofs.Failure.Primitive
import ClassText.Proofs.Reader.Repetition

/-! Where repeated and nested readers stop. What holds of the tokens consumed before a round is an
invariant of the rounds; the bound on their number grows with the input, but it is never what ends
them. -/
namespace ClassText

open Grammar

/-- Rounds of items behind a sign derive further items, whatever follows. -/
theorem Phrase.Rounds.further {P : Phrase α} {D : List Token → α → Prop} {sign : Symbol}
    (hP : ∀ p a us, P p a us → D p a) {p us : List Token} {as : List α}
    (h : Rounds (behind (.symbol sign) P) p as us) : Further D sign p as := by
  induction h with
  | stop h =>
    obtain ⟨rfl, -⟩ := h
    exact .nil
  | go h _ ih =>
    obtain ⟨q, rfl, hq⟩ := h
    exact .cons (hP _ _ _ hq) ih

namespace Reader.Accords

variable {α β : Type} {p : List Token} {more : List Located} {s : Reading}

theorem length_extend_lt {t : Reading} {q : List Token} {n : Nat} (hq : q ≠ [])
    (ht : s.unread = q ++ t.unread) (hn : (s.extend more).unread.length < n + 1) :
    (t.extend more).unread.length < n := by
  have hlen := List.length_pos_iff.2 hq
  rw [Reading.unread_extend, ht] at hn
  rw [Reading.unread_extend]
  simp only [List.length_append] at hn ⊢
  omega

theorem collectWithin {step step' : Reader (Option α)} {P : Phrase (Option α)}
    {I : List Token → Prop} (hP : ∀ q a us, P q (some a) us → q ≠ [])
    (hI : ∀ p q a us, I p → P q (some a) us → I (p ++ q)) {n m : Nat} (hs : s.Visible)
    (hn : s.unread.length < n) (hm : (s.extend more).unread.length < m)
    (hreads : ∀ t, t.Visible → t.unread.length ≤ s.unread.length → Reads step t P)
    (hstep : ∀ p t, I p → t.Visible → t.unread.length ≤ s.unread.length →
      Accords p more step step' t) (hp : I p) :
    Accords p more (collectWithin step n) (collectWithin step' m) s := by
  induction n generalizing s p m with
  | zero => omega
  | succ n ih =>
    cases m with
    | zero => omega
    | succ m =>
      refine (hstep p s hp hs (Nat.le_refl _)).bind (hreads s hs (Nat.le_refl _))
        fun o q t ht hq hPo => ?_
      cases o with
      | none => exact pure []
      | some a =>
        have hne := hP q a _ hPo
        have hpos := List.length_pos_iff.2 hne
        have hlen : t.unread.length < s.unread.length := by rw [hq, List.length_append]; omega
        have hrest := ih ht (by omega) (length_extend_lt hne hq hm)
          (fun u hu hle => hreads u hu (by omega))
          (fun r u hr hu hle => hstep r u hr hu (by omega)) (hI p q a _ hp hPo)
        exact hrest.bind (Reads.collectWithin ht (by omega)
          (fun u hu hle => hreads u hu (by omega)) hP) fun as r u _ _ _ => pure (a :: as)

/-- An invariant `I` of the rounds holds of what is consumed before each of them. -/
theorem collect {step step' : Reader (Option α)} {P : Phrase (Option α)} {I : List Token → Prop}
    (hP : ∀ q a us, P q (some a) us → q ≠ [])
    (hI : ∀ p q a us, I p → P q (some a) us → I (p ++ q)) (hs : s.Visible)
    (hreads : ∀ t, t.Visible → t.unread.length ≤ s.unread.length → Reads step t P)
    (hstep : ∀ p t, I p → t.Visible → t.unread.length ≤ s.unread.length →
      Accords p more step step' t) (hp : I p) :
    Accords p more (collect step) (collect step') s :=
  (collectWithin hP hI hs (Nat.lt_succ_self _) (Nat.lt_succ_self _) hreads hstep hp).of_run_eq rfl rfl

theorem extendWithin {step step' : α → Reader (Option α)} {P : α → Phrase (Option α)}
    {I : α → List Token → Prop} (hP : ∀ a q b us, P a q (some b) us → q ≠ [])
    (hI : ∀ a p q b us, I a p → P a q (some b) us → I b (p ++ q)) {n m : Nat} (hs : s.Visible)
    (hn : s.unread.length < n) (hm : (s.extend more).unread.length < m)
    (hreads : ∀ a t, t.Visible → t.unread.length ≤ s.unread.length → Reads (step a) t (P a))
    (hstep : ∀ a p t, I a p → t.Visible → t.unread.length ≤ s.unread.length →
      Accords p more (step a) (step' a) t) {a : α} (hp : I a p) :
    Accords p more (extendWithin step n a) (extendWithin step' m a) s := by
  induction n generalizing s p m a with
  | zero => omega
  | succ n ih =>
    cases m with
    | zero => omega
    | succ m =>
      refine (hstep a p s hp hs (Nat.le_refl _)).bind (hreads a s hs (Nat.le_refl _))
        fun o q t ht hq hPo => ?_
      cases o with
      | none => exact pure a
      | some b =>
        have hne := hP a q b _ hPo
        have hpos := List.length_pos_iff.2 hne
        have hlen : t.unread.length < s.unread.length := by rw [hq, List.length_append]; omega
        exact ih ht (by omega) (length_extend_lt hne hq hm)
          (fun c u hu hle => hreads c u hu (by omega))
          (fun c r u hr hu hle => hstep c r u hr hu (by omega)) (hI a p q b _ hp hPo)

theorem extend {step step' : α → Reader (Option α)} {P : α → Phrase (Option α)}
    {I : α → List Token → Prop} (hP : ∀ a q b us, P a q (some b) us → q ≠ [])
    (hI : ∀ a p q b us, I a p → P a q (some b) us → I b (p ++ q)) (hs : s.Visible)
    (hreads : ∀ a t, t.Visible → t.unread.length ≤ s.unread.length → Reads (step a) t (P a))
    (hstep : ∀ a p t, I a p → t.Visible → t.unread.length ≤ s.unread.length →
      Accords p more (step a) (step' a) t) {a : α} (hp : I a p) :
    Accords p more (extend step a) (extend step' a) s :=
  (extendWithin hP hI hs (Nat.lt_succ_self _) (Nat.lt_succ_self _) hreads hstep hp).of_run_eq rfl rfl

/-- Further items behind a sign, wherever one more of them may follow the sign. -/
theorem eachBehind {item item' : Reader α} {P : Phrase α} {D : List Token → α → Prop} {sign : Symbol}
    (hsign : (Token.symbol sign).Plain) (hPD : ∀ q a us, P q a us → D q a) (hs : s.Visible)
    (hreads : ∀ t, t.Visible → t.unread.length < s.unread.length → Reads item t P)
    (hitem : ∀ p t, Opens D p → t.Visible → t.unread.length < s.unread.length →
      Accords p more item item' t)
    (hp : ∀ q as, Further D sign q as → Opens D (p ++ q ++ [.symbol sign])) :
    Accords p more (eachBehind (.symbol sign) item) (eachBehind (.symbol sign) item') s := by
  refine collect (P := Phrase.behind (.symbol sign) P)
    (I := fun r => ∃ q as, r = p ++ q ∧ Further D sign q as) ?_ ?_ hs ?_ ?_ ⟨[], [], by simp, .nil⟩
  · rintro q a us ⟨r, rfl, -⟩
    exact List.cons_ne_nil _ _
  · rintro _ _ a us ⟨q, as, rfl, hq⟩ ⟨r, rfl, hr⟩
    exact ⟨_, _, List.append_assoc .., hq.snoc (hPD _ _ _ hr)⟩
  · refine fun t ht hle => Reads.oneBehind hsign ht fun u hu htu => hreads u hu ?_
    rw [htu, List.length_cons] at hle
    omega
  · rintro _ t ⟨q, as, rfl, hq⟩ ht hle
    refine ifAccept ht hsign (fun u hu htu => ?_) fun u _ _ _ => pure none
    have hlt : u.unread.length < s.unread.length := by
      rw [htu, List.length_cons] at hle
      omega
    exact (hitem _ u (hp q as hq) hu hlt).bind (hreads u hu hlt) fun a _ _ _ _ _ => pure (some a)

/-- A nested reader of what may stand wherever `G` holds. -/
theorem nestedWithin {ended : Reader α} {body : Reader α → Reader α} {P : Phrase α}
    {G : List Token → Prop}
    (hreads : ∀ n t, t.Visible → t.unread.length ≤ n → Reads (nestedWithin ended body n) t P)
    (hended : ∀ p t (r' : Reader α), G p → t.cursor.ahead = [] → Accords p more ended r' t)
    (hbody : ∀ r r' p t, G p → t.Visible →
      (∀ u, u.Visible → u.unread.length < t.unread.length → Reads r u P) →
      (∀ q u, G q → u.Visible → u.unread.length < t.unread.length → Accords q more r r' u) →
      Accords p more (body r) (body r') t) {n m : Nat} (hs : s.Visible)
    (hn : s.unread.length ≤ n) (hm : (s.extend more).unread.length ≤ m) (hp : G p) :
    Accords p more (nestedWithin ended body n) (nestedWithin ended body m) s := by
  induction n generalizing s p m with
  | zero =>
    exact hended p s _ hp (Reading.unread_eq_nil_iff.1 (List.length_eq_zero_iff.1 (by omega)))
  | succ n ih =>
    have hr : ∀ u, u.Visible → u.unread.length < s.unread.length →
        Reads (Reader.nestedWithin ended body n) u P := fun u hu hlt => hreads n u hu (by omega)
    rw [Reading.unread_extend, List.length_append] at hm
    cases m with
    | zero =>
      have hnil : s.cursor.ahead = [] :=
        Reading.unread_eq_nil_iff.1 (List.length_eq_zero_iff.1 (by omega))
      exact of_nil _ (hbody _ (Reader.nestedWithin ended body n) p s hp hs hr
        fun q u hq hu hlt => by omega) hnil
    | succ m =>
      refine hbody _ _ p s hp hs hr fun q u hq hu hlt => ih hu (by omega) ?_ hq
      rw [Reading.unread_extend, List.length_append]
      omega

theorem nested {ended : Reader α} {body : Reader α → Reader α} {P : Phrase α}
    {G : List Token → Prop}
    (hreads : ∀ n t, t.Visible → t.unread.length ≤ n → Reads (Reader.nestedWithin ended body n) t P)
    (hended : ∀ p t (r' : Reader α), G p → t.cursor.ahead = [] → Accords p more ended r' t)
    (hbody : ∀ r r' p t, G p → t.Visible →
      (∀ u, u.Visible → u.unread.length < t.unread.length → Reads r u P) →
      (∀ q u, G q → u.Visible → u.unread.length < t.unread.length → Accords q more r r' u) →
      Accords p more (body r) (body r') t) (hs : s.Visible) (hp : G p) :
    Accords p more (nested ended body) (nested ended body) s :=
  (nestedWithin hreads hended hbody hs (Nat.le_refl _) (Nat.le_refl _) hp).of_run_eq rfl rfl

end Reader.Accords
end ClassText
