import ClassText.Cursor.Token
import Mathlib.Tactic.Common

/-! What a cursor that only goes forward leaves as it is. Tokens are counted from the first one of the
input, so that those behind, those ahead and those in between can be told apart. -/
namespace ClassText

namespace Located

/-- `m` is what is left of the compound symbol `l`, of which the first `k` characters have been used up. -/
structure ShortenedBy (k : Nat) (l m : Located) : Prop where
  symbols : ∃ x y : Symbol, l.token = .symbol x ∧ m.token = .symbol y ∧
    x.spelling.toList.head? = some '>' ∧ y.spelling.toList = x.spelling.toList.drop k
  pos : 0 < k
  lt : ∀ x, l.token = .symbol x → k < x.spelling.toList.length
  position : m.position = ⟨l.position.line, l.position.column + k, l.position.offset + k⟩
  span : m.span = ⟨l.span.start + k, l.span.stop⟩

theorem shortenedBy_splitTo {l : Located} {x left : Symbol} (ht : l.token = .symbol x)
    (hx : x.afterAngle? = some left) : l.ShortenedBy 1 (l.splitTo (.symbol left)) where
  symbols := ⟨x, left, ht, rfl, by simp [Symbol.spelling_of_afterAngle? hx]⟩
  pos := Nat.one_pos
  lt y hy := by
    obtain rfl : x = y := Token.symbol.inj (ht.symm.trans hy)
    have hpos := List.length_pos_iff.2 left.spelling_ne_nil
    rw [Symbol.spelling_of_afterAngle? hx, List.length_cons]
    omega
  position := rfl
  span := rfl

theorem ShortenedBy.trans {j k : Nat} {l m n : Located} (h : l.ShortenedBy j m)
    (h' : m.ShortenedBy k n) : l.ShortenedBy (j + k) n := by
  obtain ⟨x, y, hx, hy, hhead, hdrop⟩ := h.symbols
  obtain ⟨y', z, hy', hz, -, hdrop'⟩ := h'.symbols
  obtain rfl : y = y' := Token.symbol.inj (hy.symm.trans hy')
  refine ⟨⟨x, z, hx, hz, hhead, ?_⟩, Nat.add_pos_left h.pos k, fun w hw => ?_, ?_, ?_⟩
  · rw [hdrop', hdrop, List.drop_drop]
  · obtain rfl : x = w := Token.symbol.inj (hx.symm.trans hw)
    have hlt := h'.lt y hy
    rw [hdrop, List.length_drop] at hlt
    omega
  · rw [h'.position, h.position, Nat.add_assoc, Nat.add_assoc]
  · rw [h'.span, h.span, Nat.add_assoc]

end Located

namespace TokenCursor

/-- How many tokens lie behind the cursor. -/
def index (c : TokenCursor) : Nat := c.behind.length

/-- The cursor has come from `c` to `d`, forward or not at all, and the input is still as long. What was
behind and what is further ahead is as it was, and so is each token that was passed or come to, unless
characters have been used up from the front of a compound symbol. -/
structure Frame (c d : TokenCursor) : Prop where
  length_input : d.input.length = c.input.length
  index_le : c.index ≤ d.index
  index_le_length : d.index ≤ d.input.length
  behind : ∀ i < c.index, d.input[i]? = c.input[i]?
  ahead : ∀ i, d.index < i → d.input[i]? = c.input[i]?
  between : ∀ i, c.index ≤ i → i ≤ d.index → d.input[i]? = c.input[i]? ∨
    ∃ l m k, c.input[i]? = some l ∧ d.input[i]? = some m ∧ l.ShortenedBy k m

variable {c d e : TokenCursor}

theorem index_le_length (c : TokenCursor) : c.index ≤ c.input.length := by
  simp [index, input]

theorem Frame.of_input_eq (h : d.input = c.input) (hi : c.index ≤ d.index) : Frame c d where
  length_input := by rw [h]
  index_le := hi
  index_le_length := d.index_le_length
  behind _ _ := by rw [h]
  ahead _ _ := by rw [h]
  between _ _ _ := .inl (by rw [h])

theorem Frame.refl (c : TokenCursor) : Frame c c := .of_input_eq rfl (Nat.le_refl _)

/-- Only the token where the first way ends can have been shortened on both. -/
theorem Frame.trans (h : Frame c d) (h' : Frame d e) : Frame c e where
  length_input := h'.length_input.trans h.length_input
  index_le := Nat.le_trans h.index_le h'.index_le
  index_le_length := h'.index_le_length
  behind i hi := (h'.behind i (Nat.lt_of_lt_of_le hi h.index_le)).trans (h.behind i hi)
  ahead i hi := (h'.ahead i hi).trans (h.ahead i (Nat.lt_of_le_of_lt h'.index_le hi))
  between i hc he := by
    obtain hlt | rfl | hgt := Nat.lt_trichotomy i d.index
    · rw [h'.behind i hlt]
      exact h.between i hc (Nat.le_of_lt hlt)
    · obtain hsame | ⟨l, m, k, hl, hm, hk⟩ := h'.between _ (Nat.le_refl _) he
      · rw [hsame]
        exact h.between _ hc (Nat.le_refl _)
      · obtain hsame | ⟨l', m', k', hl', hm', hk'⟩ := h.between _ hc (Nat.le_refl _)
        · exact .inr ⟨l, m, k, hsame ▸ hl, hm, hk⟩
        · obtain rfl : l = m' := Option.some.inj (hl.symm.trans hm')
          exact .inr ⟨l', m, k' + k, hl', hm, hk'.trans hk⟩
    · rw [← h.ahead i hgt]
      exact h'.between i (Nat.le_of_lt hgt) he

theorem frame_advance (c : TokenCursor) : Frame c c.advance := by
  refine .of_input_eq c.input_advance ?_
  unfold advance index
  split
  · exact Nat.le_refl _
  · exact Nat.le_succ _

/-- Of the current token, the characters that are left take its place. -/
theorem frame_splitTo {b ls : List Located} {l : Located} {x left : Symbol} (ht : l.token = .symbol x)
    (hx : x.afterAngle? = some left) : Frame ⟨b, l :: ls⟩ ⟨b, l.splitTo (.symbol left) :: ls⟩ := by
  have hother (i : Nat) (hi : i ≠ b.length) :
      (input ⟨b, l.splitTo (.symbol left) :: ls⟩)[i]? = (input ⟨b, l :: ls⟩)[i]? := by
    simp only [input, List.getElem?_append, List.length_reverse]
    split
    · rfl
    · obtain ⟨j, hj⟩ := Nat.exists_eq_succ_of_ne_zero (n := i - b.length) (by omega)
      rw [hj, List.getElem?_cons_succ, List.getElem?_cons_succ]
  refine ⟨by simp [input], Nat.le_refl _, index_le_length _, fun i hi => hother i (Nat.ne_of_lt hi),
    fun i hi => hother i (Nat.ne_of_gt hi), fun i hc hd => ?_⟩
  obtain rfl : i = b.length := Nat.le_antisymm hd hc
  exact .inr ⟨l, _, 1, by simp [input], by simp [input], Located.shortenedBy_splitTo ht hx⟩

end TokenCursor
end ClassText
