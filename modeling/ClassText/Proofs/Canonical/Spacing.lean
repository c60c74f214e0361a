import ClassText.Canonical.Piece
import ClassText.Proofs.Lexeme.Integer
import ClassText.Proofs.Lexeme.Symbol

/-! Pieces in a row spell their own tokens. A run over the pieces keeps track of what the last one was,
and goes on only with a piece that cannot be read together with it. -/
namespace ClassText

open Lexeme

/-- What a piece is to its neighbours. -/
inductive Edge where
  | gap | word | solo | angle | operator
deriving DecidableEq, Repr

/-- Whether a piece of the second kind may stand behind one of the first. Closing angles may meet,
since they are taken apart again. -/
def Edge.meets : Edge → Edge → Bool
  | .gap, _ | .solo, _ | _, .gap | _, .solo => true
  | .word, .word => false
  | .word, _ | _, .word => true
  | .angle, .angle => true
  | _, _ => false

namespace Symbol

/-- Whether the symbol is one character that no longer symbol begins with, and no comment either. -/
def isSolo : Symbol → Bool
  | .leftBrace | .rightBrace | .leftBracket | .rightBracket | .leftParen | .rightParen
  | .dot | .comma | .semicolon => true
  | _ => false

/-- The characters that are second or later in a symbol, or second in what opens a comment. -/
def laterChars : List Char := ['=', '<', '>', '+', '-', '|', '&', '/', '*']

theorem mem_laterChars {s : Symbol} {c : Char} (h : s.absorbs c = true) : c ∈ laterChars := by
  have hn : ∀ s ∈ all, s.nexts.all laterChars.contains = true := by decide +kernel
  simp only [absorbs, Bool.or_eq_true, Bool.and_eq_true, List.contains_iff_mem, beq_iff_eq] at h
  obtain h | ⟨-, rfl | rfl⟩ := h
  · exact List.contains_iff_mem.1 (List.all_eq_true.1 (hn s s.mem_all) c h)
  · decide
  · decide

theorem absorbs_of_notMem (s : Symbol) {c : Char} (h : c ∉ laterChars) : s.absorbs c = false :=
  Bool.eq_false_iff.2 fun ha => h (mem_laterChars ha)

/-- No symbol goes on with a character of a kind that no later character of a symbol is of. -/
theorem absorbs_of_kind {p : Char → Bool} (hp : laterChars.all (fun d => !p d) = true) (s : Symbol)
    {c : Char} (hc : p c = true) : s.absorbs c = false := by
  refine s.absorbs_of_notMem fun hmem => ?_
  have hnot : (!p c) = true := List.all_eq_true.1 hp c hmem
  rw [hc] at hnot
  cases hnot

theorem absorbs_of_isWordChar (s : Symbol) {c : Char} (hc : Text.isWordChar c = true) :
    s.absorbs c = false :=
  absorbs_of_kind (p := Text.isWordChar) rfl s hc

theorem absorbs_of_isBlank (s : Symbol) {c : Char} (hc : Text.isBlank c = true) : s.absorbs c = false :=
  absorbs_of_kind (p := Text.isBlank) rfl s hc

theorem solo_spelling {s : Symbol} (hs : s.isSolo = true) : s.nexts = [] ∧ s ≠ .slash ∧
    s.spelling.toList.head?.all (!laterChars.contains ·) = true := by
  have h : ∀ s ∈ all, s.isSolo = true → s.nexts = [] ∧ s ≠ .slash ∧
      s.spelling.toList.head?.all (!laterChars.contains ·) = true := by decide +kernel
  exact h s s.mem_all hs

theorem absorbs_of_isSolo {s : Symbol} (hs : s.isSolo = true) (c : Char) : s.absorbs c = false := by
  obtain ⟨hn, hne, -⟩ := solo_spelling hs
  simp [absorbs, hn, hne]

theorem absorbs_solo (s : Symbol) {t : Symbol} (ht : t.isSolo = true) {c : Char} {cs : List Char}
    (hc : t.spelling.toList = c :: cs) : s.absorbs c = false := by
  obtain ⟨-, -, h⟩ := solo_spelling ht
  exact s.absorbs_of_notMem (by simpa [hc] using h)

end Symbol

namespace Piece

def edge : Piece → Edge
  | .lexeme (.symbol s) => if s = .gt then .angle else if s.isSolo then .solo else .operator
  | .lexeme _ => .word
  | .space | .newline => .gap

/-- Whether the piece is a token that its own text spells, no compound symbol and no quoted literal. -/
def isPlain : Piece → Bool
  | .lexeme (.identifier x) => isWord x
  | .lexeme (.symbol s) => s.parts = [s]
  | .lexeme (.character _) | .lexeme (.string _) => false
  | _ => true

/-- The kind of the last piece, if every piece may stand behind the one before it. -/
def run : Edge → List Piece → Option Edge
  | a, [] => some a
  | a, p :: ps => if a.meets p.edge && p.isPlain then run p.edge ps else none

theorem run_append {a : Edge} {ps qs : List Piece} :
    run a (ps ++ qs) = (run a ps).bind fun b => run b qs := by
  induction ps generalizing a with
  | nil => rfl
  | cons p ps ih =>
    simp only [List.cons_append, run]
    split
    · exact ih
    · rfl

theorem run_cons {a : Edge} {p : Piece} {ps : List Piece} (hm : a.meets p.edge = true)
    (hp : p.isPlain = true) : run a (p :: ps) = run p.edge ps := by
  simp [run, hm, hp]

/-- The characters that must not follow a piece. -/
def absorbs : Piece → Char → Bool
  | .lexeme (.symbol s) => s.absorbs
  | .lexeme _ => Text.isWordChar
  | .space | .newline => fun _ => false

theorem toList_join_cons (p : Piece) (ps : List Piece) :
    (join (p :: ps)).toList = p.text.toList ++ (join ps).toList := by
  rw [← List.singleton_append, join_append, String.toList_append]
  simp [join]

/-- The first character of a plain piece, by what the piece is. -/
def Begins (c : Char) : Piece → Prop
  | .lexeme (.symbol s) => s.spelling.toList.head? = some c
  | .lexeme _ => Text.isWordChar c = true
  | .space => c = ' '
  | .newline => c = '\n'

theorem exists_begins {p : Piece} (hp : p.isPlain = true) :
    ∃ c cs, p.text.toList = c :: cs ∧ p.Begins c := by
  match p with
  | .lexeme (.keyword k) =>
    obtain ⟨c, cs, hk, -, hw⟩ := keyword_spelling k
    exact ⟨c, cs, hk, hw c List.mem_cons_self⟩
  | .lexeme (.symbol s) =>
    obtain ⟨c, cs, hs, -⟩ := symbol_spelling s
    exact ⟨c, cs, hs, by simp [Begins, hs]⟩
  | .lexeme (.identifier x) =>
    obtain ⟨c, cs, hx, -, hw, -⟩ := isWord_iff.1 hp
    exact ⟨c, cs, hx, hw c List.mem_cons_self⟩
  | .lexeme (.integer value isLong) =>
    obtain ⟨c, cs, hi, hd⟩ := integerText_cons value isLong
    exact ⟨c, cs, hi, Text.isWordChar_of_isDigit hd⟩
  | .space => exact ⟨_, _, rfl, rfl⟩
  | .newline => exact ⟨_, _, rfl, rfl⟩

/-- A symbol that may stand behind a word or an operator is read apart from it. -/
theorem isSolo_of_meets {s t : Symbol} (hm : (sign s).edge.meets (sign t).edge = true)
    (ha : (sign s).edge ≠ .angle ∨ (sign t).edge ≠ .angle) : s.isSolo = true ∨ t.isSolo = true := by
  by_contra h
  obtain ⟨hs, ht⟩ := not_or.1 h
  simp only [edge, sign, hs, ht] at hm ha
  by_cases h₁ : s = .gt <;> by_cases h₂ : t = .gt <;> simp [h₁, h₂, Edge.meets] at hm ha

theorem absorbs_of_meets {p q : Piece} (hm : p.edge.meets q.edge = true)
    (ha : p.edge ≠ .angle ∨ q.edge ≠ .angle) {c : Char} (hc : q.Begins c) : p.absorbs c = false := by
  match p, q with
  | .space, _ | .newline, _ => rfl
  | .lexeme (.symbol s), .space => obtain rfl := hc; exact s.absorbs_of_isBlank rfl
  | .lexeme (.symbol s), .newline => obtain rfl := hc; exact s.absorbs_of_isBlank rfl
  | .lexeme (.symbol s), .lexeme (.symbol t) =>
    obtain ⟨cs, ht⟩ := List.head?_eq_some_iff.1 hc
    obtain h | h := isSolo_of_meets hm ha
    · exact Symbol.absorbs_of_isSolo h c
    · exact s.absorbs_solo h ht
  | .lexeme (.symbol s), .lexeme (.keyword _) | .lexeme (.symbol s), .lexeme (.identifier _)
  | .lexeme (.symbol s), .lexeme (.integer _ _) | .lexeme (.symbol s), .lexeme (.character _)
  | .lexeme (.symbol s), .lexeme (.string _) => exact s.absorbs_of_isWordChar hc
  | .lexeme (.keyword _), q | .lexeme (.identifier _), q | .lexeme (.integer _ _), q
  | .lexeme (.character _), q | .lexeme (.string _), q =>
    match q with
    | .space => obtain rfl := hc; rfl
    | .newline => obtain rfl := hc; rfl
    | .lexeme (.symbol t) =>
      obtain ⟨d, ds, ht, -, hw, -⟩ := symbol_spelling t
      obtain rfl : d = c := by simpa [Begins, ht] using hc
      exact hw
    | .lexeme (.keyword _) | .lexeme (.identifier _) | .lexeme (.integer _ _)
    | .lexeme (.character _) | .lexeme (.string _) => simp [edge, Edge.meets] at hm

/-- Where a run goes on, nothing that follows is read together with the piece before it. -/
theorem stops_of_run {p : Piece} {ps : List Piece} {b : Edge} (ha : p.edge ≠ .angle)
    (h : run p.edge ps = some b) : Stops p.absorbs (join ps).toList := by
  cases ps with
  | nil => simp [Stops]
  | cons q ps =>
    simp only [run] at h
    split at h
    · next hq =>
      obtain ⟨hm, hq⟩ := Bool.and_eq_true_iff.1 hq
      obtain ⟨c, cs, ht, hc⟩ := exists_begins hq
      intro d hd
      obtain rfl : c = d := by simpa [toList_join_cons, ht] using hd
      exact absorbs_of_meets hm (.inl ha) hc
    · cases h

/-- A plain piece spells its token, if it has one, in front of what cannot be read together with it. -/
theorem spells_cons {p : Piece} {ds : List Char} {ts : List Token} (hp : p.isPlain = true)
    (h : Spells ds ts) (hs : Stops p.absorbs ds) :
    Spells (p.text.toList ++ ds) (p.token?.toList ++ ts) := by
  match p with
  | .lexeme (.keyword k) => exact h.keyword hs
  | .lexeme (.symbol s) => exact h.symbol hs
  | .lexeme (.identifier x) => exact h.identifier hp hs
  | .lexeme (.integer value isLong) => exact h.integer value isLong hs
  | .space => exact h.of_layout (splitLayout_blank rfl (by decide))
  | .newline => exact h.of_layout (splitLayout_blank rfl (by decide))

theorem expand_token? {p : Piece} (hp : p.isPlain = true) :
    Token.expand p.token?.toList = p.token?.toList := by
  match p with
  | .lexeme (.symbol s) =>
    have hs : s.parts = [s] := by simpa [isPlain] using hp
    simp [token?, Token.parts, hs]
  | .lexeme (.keyword _) | .lexeme (.identifier _) | .lexeme (.integer _ _) => rfl
  | .space | .newline => rfl

theorem eq_gt_of_edge {p : Piece} (h : p.edge = .angle) : p = sign .gt := by
  match p with
  | .lexeme (.symbol s) =>
    by_cases hs : s = .gt
    · rw [hs]
      rfl
    · simp only [edge, hs, if_false] at h
      split at h <;> cases h
  | .lexeme (.keyword _) | .lexeme (.identifier _) | .lexeme (.integer _ _)
  | .lexeme (.character _) | .lexeme (.string _) | .space | .newline => cases h

theorem tokens_cons (p : Piece) (ps : List Piece) :
    tokens (p :: ps) = p.token?.toList ++ tokens ps := by
  cases h : p.token? <;> simp [tokens, h]

/-- Pieces of a run spell their tokens, also behind closing angles if such a piece comes before. -/
theorem spells_of_run {a b : Edge} {ps : List Piece} (h : run a ps = some b) (n : Nat)
    (hn : n = 0 ∨ a = .angle) : ∃ us, Spells (List.replicate n '>' ++ (join ps).toList) us ∧
      Token.expand us = List.replicate n (.symbol .gt) ++ tokens ps := by
  induction ps generalizing a n with
  | nil =>
    have hnil : Spells [] [] := .done rfl
    obtain ⟨us, hus, he⟩ := hnil.angles (by simp [Stops]) n
    exact ⟨us ++ [], hus, by simp [he]⟩
  | cons p ps ih =>
    simp only [run] at h
    split at h
    · next hmp =>
      obtain ⟨hm, hp⟩ := Bool.and_eq_true_iff.1 hmp
      by_cases ha : p.edge = .angle
      · -- The angle joins those before it, and the run goes on.
        obtain ⟨us, hus, he⟩ := ih h (n + 1) (.inr ha)
        obtain rfl := eq_gt_of_edge ha
        refine ⟨us, ?_, ?_⟩
        · rw [toList_join_cons, ← List.append_assoc]
          rwa [List.replicate_succ'] at hus
        · rw [he, tokens_cons, List.replicate_succ', List.append_assoc]
          rfl
      · obtain ⟨us, hus, he⟩ := ih h 0 (.inl rfl)
        have hcons : Spells (join (p :: ps)).toList (p.token?.toList ++ us) := by
          rw [toList_join_cons]
          exact spells_cons hp hus (stops_of_run ha h)
        have hexp : Token.expand (p.token?.toList ++ us) = tokens (p :: ps) := by
          rw [Token.expand_append, expand_token? hp, he, tokens_cons]
          rfl
        obtain rfl | rfl := hn
        · exact ⟨_,hcons,hexp⟩
        · have hstop : Stops Symbol.gt.absorbs (join (p :: ps)).toList := by
            obtain ⟨c, cs, ht, hc⟩ := exists_begins hp
            intro d hd
            obtain rfl : c = d := by simpa [toList_join_cons, ht] using hd
            exact absorbs_of_meets (p := sign .gt) hm (.inr ha) hc
          obtain ⟨vs, hvs, hv⟩ := hcons.angles hstop n
          exact ⟨vs ++ (p.token?.toList ++ us), hvs, by rw [Token.expand_append, hv, hexp]⟩
    · cases h

/-- The text of a run is cut into its own tokens, up to the grouping of closing angles. -/
theorem tokenize_join {b : Edge} {ps : List Piece} (h : run .gap ps = some b) :
    ∃ ls, tokenize (join ps) = .ok ls ∧ Token.expand (ls.map (·.token)) = tokens ps := by
  obtain ⟨us, hus, he⟩ := spells_of_run h 0 (.inl rfl)
  obtain ⟨ls, hls, rfl⟩ := tokenize_iff.2 hus
  exact ⟨ls, hls, he⟩

end Piece
end ClassText
