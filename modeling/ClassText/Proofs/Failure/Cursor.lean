import ClassText.Proofs.Reader.Phrase
import Mathlib.Data.List.Forall2

/-! How the cursor of a reader moves: over tokens that have no parts, and over the leading `>` of compound
symbols, which leaves the remainder in their place. Nothing else of the input changes. -/
namespace ClassText

/-- A compound symbol is a `>` and the parts of what is left without it. -/
theorem Token.parts_of_afterAngle? {t : Token} {x left : Symbol} (ht : t = .symbol x)
    (hx : x.afterAngle? = some left) : t.parts = .symbol .gt :: (Token.symbol left).parts := by
  rw [ht, parts, Symbol.parts_of_afterAngle? hx]
  rfl

namespace Located

/-- What remains of a located token when leading `>` have been taken off it, if any. -/
inductive Remains : Located → Located → Prop
  | whole : Remains l l
  | split : l.token = .symbol x → x.afterAngle? = some left → Remains (l.splitTo (.symbol left)) l' →
      Remains l l'

namespace Remains

variable {l l' : Located}

instance : Std.Refl Remains := ⟨fun _ => .whole⟩

/-- A remainder is a symbol that stands behind a `>` in a compound one. -/
theorem eq_or_symbol (h : Remains l l') : l' = l ∨ ∃ x left : Symbol, x.afterAngle? = some left ∧
    l'.token = .symbol left := by
  induction h with
  | whole => exact .inl rfl
  | split _ hx _ ih =>
    obtain rfl | ih := ih
    · exact .inr ⟨_, _, hx, rfl⟩
    · exact .inr ih

theorem span_stop (h : Remains l l') : l'.span.stop = l.span.stop := by
  induction h with
  | whole => rfl
  | split _ _ _ ih => exact ih

theorem length_parts_le (h : Remains l l') : l'.token.parts.length ≤ l.token.parts.length := by
  induction h with
  | whole => exact Nat.le_refl _
  | split ht hx _ ih =>
    rw [Token.parts_of_afterAngle? ht hx, List.length_cons]
    exact Nat.le_succ_of_le ih

theorem length_expand_le {ls ls' : List Located} (h : List.Forall₂ Remains ls ls') :
    (Token.expand (ls'.map (·.token))).length ≤ (Token.expand (ls.map (·.token))).length := by
  induction h with
  | nil => exact Nat.le_refl _
  | cons hl _ ih =>
    have hle := hl.length_parts_le
    simp only [List.map_cons, Token.expand_cons, List.length_append]
    omega

/-- One of the tokens may be split before. -/
theorem forall₂_split {x left : Symbol} {b ls ls' : List Located} (ht : l.token = .symbol x)
    (hx : x.afterAngle? = some left)
    (h : List.Forall₂ Remains (b ++ l.splitTo (.symbol left) :: ls) ls') :
    List.Forall₂ Remains (b ++ l :: ls) ls' := by
  induction b generalizing ls' with
  | nil =>
    cases h with
    | cons hl h => exact .cons (.split ht hx hl) h
  | cons m b ih =>
    cases h with
    | cons hm h => exact .cons hm (ih h)

/-- What is no remainder has been there from the start. -/
theorem eq_of_forall₂ {ls ls' : List Located} (h : List.Forall₂ Remains ls ls')
    (hls : ∀ m ∈ ls', ∀ x left : Symbol, x.afterAngle? = some left → m.token ≠ .symbol left) :
    ls = ls' := by
  induction h with
  | nil => rfl
  | cons hl _ ih =>
    obtain rfl | ⟨x, left, hx, hl⟩ := hl.eq_or_symbol
    · rw [ih fun m hm => hls m (List.mem_cons_of_mem _ hm)]
    · exact absurd hl (hls _ List.mem_cons_self x left hx)

/-- What stands last and is no remainder has stood last from the start. -/
theorem eq_append_of_forall₂ {ls b ls' : List Located} (h : List.Forall₂ Remains ls (b ++ ls'))
    (hls : ∀ m ∈ ls', ∀ x left : Symbol, x.afterAngle? = some left → m.token ≠ .symbol left) :
    ls = ls.take b.length ++ ls' := by
  have hrest := eq_of_forall₂ (List.forall₂_drop_append ls b ls' h) hls
  rw [← hrest, List.take_append_drop]

end Remains
end Located

namespace TokenCursor

/-- One cursor is reached from another by moving over tokens that have no parts and by taking the leading
`>` off compound symbols. -/
inductive Moves : TokenCursor → TokenCursor → Prop
  | stay : Moves c c
  | skip : l.token.parts = [l.token] → Moves ⟨l :: b, ls⟩ d → Moves ⟨b, l :: ls⟩ d
  | split : l.token = .symbol x → x.afterAngle? = some left →
      Moves ⟨b, l.splitTo (.symbol left) :: ls⟩ d → Moves ⟨b, l :: ls⟩ d

theorem Moves.trans {c d e : TokenCursor} (h : Moves c d) (h' : Moves d e) : Moves c e := by
  induction h with
  | stay => exact h'
  | skip hl _ ih => exact .skip hl (ih h')
  | split ht hx _ ih => exact .split ht hx (ih h')

theorem moves_advance {c : TokenCursor} {t : Token} (h : c.peek? 0 = some t) (ht : t.parts = [t]) :
    Moves c c.advance := by
  obtain ⟨b, ls⟩ := c
  cases ls with
  | nil => exact .stay
  | cons l ls =>
    obtain rfl : l.token = t := by simpa [peek?, get?] using h
    exact .skip ht .stay

/-- So little is ahead that one more token could make a difference: nothing, or a dot. -/
def Pending (c : TokenCursor) : Prop :=
  c.ahead = [] ∨ ∃ l, c.ahead = [l] ∧ l.token = .symbol .dot

theorem Moves.pending {c d : TokenCursor} (h : Moves c d) (hc : c.Pending) : d.Pending := by
  induction h with
  | stay => exact hc
  | skip _ _ ih =>
    obtain hc | ⟨l, hc, -⟩ := hc
    · cases hc
    · cases hc
      exact ih (.inl rfl)
  | split ht hx _ ih =>
    obtain hc | ⟨l, hc, hl⟩ := hc
    · cases hc
    · cases hc
      rw [hl] at ht
      cases ht
      cases hx

/-- The number of tokens ahead, with compound symbols taken apart. -/
def size (c : TokenCursor) : Nat := (Token.expand (c.ahead.map (·.token))).length

/-- What moves at all leaves fewer tokens ahead. -/
theorem Moves.eq_or_size_lt {c d : TokenCursor} (h : Moves c d) : d = c ∨ d.size < c.size := by
  induction h with
  | stay => exact .inl rfl
  | @skip l _ _ _ _ _ ih =>
    have hpos := List.length_pos_iff.2 l.token.parts_ne_nil
    refine .inr ?_
    obtain rfl | ih := ih
    · simp only [size, List.map_cons, Token.expand_cons, List.length_append]
      omega
    · simp only [size, List.map_cons, Token.expand_cons, List.length_append] at ih ⊢
      omega
  | split ht hx _ ih =>
    have hparts := Token.parts_of_afterAngle? ht hx
    refine .inr ?_
    obtain rfl | ih := ih
    · simp [size, hparts]
    · simp only [size, List.map_cons, Token.expand_cons, Located.token_splitTo, hparts,
        List.length_append, List.length_cons] at ih ⊢
      omega

/-- Behind exactly one identifier, it is the token moved over last. -/
theorem Moves.head?_behind {c d : TokenCursor} {l : Located} {ls : List Located} {name : String}
    (h : Moves c d) (hc : c.ahead = l :: ls) (hl : l.token = .identifier name)
    (hsize : c.size = d.size + 1) : d.behind.head? = some l := by
  cases h with
  | stay => omega
  | @skip _ b _ _ _ h =>
    cases hc
    obtain rfl | hlt := h.eq_or_size_lt
    · rfl
    · simp only [size, List.map_cons, Token.expand_cons, hl, Token.parts, List.length_append,
        List.length_cons, List.length_nil] at hsize hlt
      omega
  | split ht =>
    cases hc
    rw [hl] at ht
    cases ht

/-- The input stays as it is, token by token, except that some tokens may only remain in part. -/
theorem Moves.remains {c d : TokenCursor} (h : Moves c d) :
    List.Forall₂ Located.Remains c.input d.input := by
  induction h with
  | stay => exact List.forall₂_refl _
  | skip _ _ ih => simpa [input] using ih
  | split ht hx _ ih => exact Located.Remains.forall₂_split ht hx ih

/-- No compound symbol comes to lie behind as it was. -/
theorem Moves.parts_behind {c d : TokenCursor} (h : Moves c d) :
    ∀ l ∈ d.behind, l ∈ c.behind ∨ l.token.parts = [l.token] := by
  induction h with
  | stay => exact fun l hl => .inl hl
  | skip hk _ ih =>
    intro l hl
    obtain hl | hl := ih l hl
    · obtain rfl | hl := List.mem_cons.1 hl
      · exact .inr hk
      · exact .inl hl
    · exact .inr hl
  | split _ _ _ ih => exact ih

theorem length_input (c : TokenCursor) : c.input.length = c.behind.length + c.ahead.length := by
  simp [input]

/-- What is ahead is no more than what there was behind as many tokens. -/
theorem Moves.size_le {c d : TokenCursor} (h : Moves c d) :
    d.size ≤ (Token.expand ((c.input.drop d.behind.length).map (·.token))).length := by
  have hahead : d.input.drop d.behind.length = d.ahead := by
    rw [input, ← d.behind.length_reverse, List.drop_left]
  have hrest := List.forall₂_drop d.behind.length h.remains
  rw [hahead] at hrest
  exact Located.Remains.length_expand_le hrest

end TokenCursor
end ClassText
