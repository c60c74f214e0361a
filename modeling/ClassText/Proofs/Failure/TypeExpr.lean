import ClassText.Proofs.Failure.Repetition
import ClassText.Proofs.Reader.TypeExpr

/-! Where the reader of types stops: wherever any type may stand. -/
namespace ClassText.Reader.Accords

open Grammar

variable {p : List Token} {more : List Located} {s : Reading} {argument argument' : Reader TypeExpr}

theorem arrayBrackets (hs : s.Visible)
    (hp : Viable (p ++ [.symbol .leftBracket, .symbol .rightBracket])) (e : TypeExpr) :
    Accords p more (arrayBrackets e) (arrayBrackets e) s :=
  ifAccept hs (by decide)
    (fun u hu _ => bind_expect hu (by decide) (by simpa using hp) fun _ _ _ => pure _)
    fun _ _ _ _ => pure none

/-- A name and the sign before its arguments may stand wherever a type may. -/
theorem opens_argument (hp : Opens DerivesType p) (n : Name) :
    Opens DerivesType (p ++ [.identifier n.text] ++ [.symbol .lt]) := by
  intro w t hw
  have h := hp _ _ (.generic n hw .nil)
  exact h.beginning (by simp)

/-- Behind some arguments, so may a comma and a further one, and the sign that closes them. -/
theorem opens_further_argument (hp : Opens DerivesType p) (n : Name) {q r : List Token}
    {first : TypeExpr} {others : List TypeExpr} (hq : DerivesType q first)
    (hr : Further DerivesType .comma r others) :
    Opens DerivesType (p ++ [.identifier n.text] ++ [.symbol .lt] ++ q ++ r ++ [.symbol .comma]) ∧
    Viable (p ++ [.identifier n.text] ++ [.symbol .lt] ++ q ++ r ++ [.symbol .gt]) := by
  constructor
  · intro w t hw
    have h := hp _ _ (.generic n hq (hr.snoc hw))
    exact h.beginning (by simp)
  · have h := hp _ _ (.generic n hq hr)
    exact h.beginning (by simp)

theorem namedType (hs : s.Visible) (hp : Opens DerivesType p)
    (hreads : ∀ u, u.Visible → u.unread.length < s.unread.length → Reads argument u Phrase.type)
    (ih : ∀ q u, Opens DerivesType q → u.Visible → u.unread.length < s.unread.length →
      Accords q more argument argument' u) :
    Accords p more (namedType argument) (namedType argument') s := by
  refine bind_identifier hs (fun n => hp _ _ (.reference n)) fun n u hu hsu => ?_
  have hlen : u.unread.length < s.unread.length := by simp [hsu]
  refine ifAccept hu (by decide) (fun v hv huv => ?_) fun v hv _ _ => build _
  have hlen' : v.unread.length < s.unread.length := by simp [huv] at hlen; omega
  refine (ih _ v (opens_argument hp n) hv hlen').bind (hreads v hv hlen')
    fun first q w hw hvw hq => ?_
  have hle : w.unread.length ≤ v.unread.length := by simp [hvw]
  refine (eachBehind (by decide) (fun _ _ _ h => h.1) hw
    (fun x hx hlt => hreads x hx (by omega)) (fun r x hr hx hlt => ih r x hr hx (by omega))
    fun r others hr => (opens_further_argument hp n hq.1 hr).1).bind
    (Reads.eachBehind (by decide) hw fun x hx hlt => hreads x hx (by omega))
    fun others r x hx _ hr => ?_
  exact bind_closingAngle hx (opens_further_argument hp n hq.1 (hr.further fun _ _ _ h => h.1)).2
    fun _ _ => build _

theorem elementType (hs : s.Visible) (hp : Opens DerivesType p)
    (hreads : ∀ u, u.Visible → u.unread.length < s.unread.length → Reads argument u Phrase.type)
    (ih : ∀ q u, Opens DerivesType q → u.Visible → u.unread.length < s.unread.length →
      Accords q more argument argument' u) :
    Accords p more (elementType argument) (elementType argument') s := by
  have hw : ∀ w, Expected.type.Admits w → Viable (p ++ w) := fun w ⟨t, ht⟩ => hp w t ht
  have refused : Accords p more (Reader.unexpected .type : Reader TypeExpr)
      (Reader.unexpected .type) s := unexpected hw
  apply bind_current
  cases hc : s.cursor.peek? 0 with
  | none => exact ended _ (Reading.peek?_zero_eq_none.1 hc) hw
  | some t =>
    cases t with
    | identifier name => exact namedType hs hp hreads ih
    | keyword k =>
      dsimp only
      cases hk : Primitive.ofKeyword? k with
      | none => exact refused
      | some kind => exact bind_skip hs rfl hc fun _ _ _ => pure _
    | _ => exact refused

theorem typeBody (hs : s.Visible) (hp : Opens DerivesType p)
    (hreads : ∀ u, u.Visible → u.unread.length < s.unread.length → Reads argument u Phrase.type)
    (ih : ∀ q u, Opens DerivesType q → u.Visible → u.unread.length < s.unread.length →
      Accords q more argument argument' u) :
    Accords p more (typeBody argument) (typeBody argument') s := by
  refine (elementType hs hp hreads ih).bind (Reads.elementType hs hreads) fun e q u hu _ hq => ?_
  refine extend (I := fun t r => ∃ w, r = p ++ w ∧ DerivesType w t) ?_ ?_ hu
    (fun t v hv _ => Reads.arrayBrackets hv t) ?_ ⟨q, rfl, hq.1⟩
  · rintro t r f us ⟨rfl, -⟩
    simp
  · rintro t _ r f us ⟨w, rfl, hw⟩ ⟨rfl, rfl⟩
    exact ⟨_, List.append_assoc .., .array hw⟩
  · rintro t _ v ⟨w, rfl, hw⟩ hv _
    exact arrayBrackets hv (by simpa using hp _ _ (.array hw)) t

theorem typeExpr (hs : s.Visible) (hp : Opens DerivesType p) :
    Accords p more typeExpr typeExpr s :=
  nested (fun _ _ ht hle => Reads.nestedWithin (fun _ => Reads.noType) (fun _ _ => Reads.typeBody) ht hle)
    (fun _ _ _ hq ht => ended _ ht fun w ⟨t, hw⟩ => hq w t hw)
    (fun _ _ _ _ hq ht hreads ih => typeBody ht hq hreads ih) hs hp

end ClassText.Reader.Accords
