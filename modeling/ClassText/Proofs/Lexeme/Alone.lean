import ClassText.Proofs.Lexeme.Gap
import ClassText.Proofs.Lexeme.Integer
import ClassText.Proofs.Lexeme.Symbol

/-! Tokens with nothing around them. The characters that are taken for a token are this token also when
they stand alone, whatever they have been followed by. -/
namespace ClassText.Lexeme

/-- The characters are a spelling of the token. Symbols and words have one spelling each. -/
inductive Denotes : List Char → Token → Prop
  | character : '\x27' ∉ raw → Denotes ('\x27' :: raw ++ ['\x27']) (.character (String.ofList raw))
  | string : '\x22' ∉ raw → Denotes ('\x22' :: raw ++ ['\x22']) (.string (String.ofList raw))
  | integer : c.isDigit = true → splitInteger (c :: cs) = i →
      Denotes i.taken (.integer i.value i.isLong)
  | word : c.isDigit = false → (∀ d ∈ c :: cs, Text.isWordChar d = true) →
      Denotes (c :: cs) (wordToken (String.ofList (c :: cs)))
  | symbol : Denotes sign.spelling.toList (.symbol sign)

theorem denotes_of_splitQuoted {quote : Char} {make : String → Token} {cs : List Char} {s : Split}
    (h : splitQuoted quote make cs = .ok s) : ∃ raw, quote ∉ raw ∧ s.taken = quote :: raw ++ [quote] ∧
      s.token = make (String.ofList raw) := by
  unfold splitQuoted at h
  split at h
  · cases h
  · cases h
    refine ⟨_, fun hq => ?_, rfl, rfl⟩
    have := List.all_eq_true.1 List.all_takeWhile quote hq
    simp at this

/-- What is taken for a token is a spelling of it. -/
theorem denotes_of_splitToken {c : Char} {cs : List Char} {s : Split} (h : splitToken c cs = .ok s) :
    Denotes s.taken s.token := by
  unfold splitToken at h
  split at h
  · next hc =>
    subst hc
    obtain ⟨raw, hraw, ht, hm⟩ := denotes_of_splitQuoted h
    rw [ht, hm]
    exact .character hraw
  split at h
  · next hc =>
    subst hc
    obtain ⟨raw, hraw, ht, hm⟩ := denotes_of_splitQuoted h
    rw [ht, hm]
    exact .string hraw
  split at h
  · next hd =>
    cases h
    exact .integer hd rfl
  split at h
  · next hd hw =>
    cases h
    have hrun : ∀ d ∈ (c :: cs).takeWhile Text.isWordChar, Text.isWordChar d = true :=
      List.all_eq_true.1 List.all_takeWhile
    rw [List.takeWhile_cons_of_pos hw] at hrun ⊢
    exact .word (by simpa using hd) hrun
  split at h
  · cases h
  split at h
  · cases h
    exact .symbol
  · cases h

/-- A step that gives a token takes a gap and a spelling of this token off the text. -/
theorem exists_lexeme_of_step {t after : Tail} {l : Located} (h : t.step = .token l after) :
    ∃ gap lexeme, Gap gap ∧ Denotes lexeme l.token ∧ t.text = gap ++ lexeme ++ after.text ∧
      l.position = t.position.after gap ∧ l.span = l.position.spanOver lexeme ∧
      after.position = l.position.after lexeme := by
  obtain ⟨c, ds, s, hl, hs, rfl, rfl⟩ := exists_split_of_step h
  exact ⟨_, s.taken, gap_of_splitLayout hl, denotes_of_splitToken hs, text_eq_of_split hl hs, rfl, rfl,
    rfl⟩

namespace Denotes

variable {lexeme : List Char}

theorem eq_spelling {x : Symbol} (h : Denotes lexeme (.symbol x)) : lexeme = x.spelling.toList := by
  generalize ht : Token.symbol x = t at h
  cases h with
  | word =>
    unfold wordToken at ht
    split at ht <;> cases ht
  | symbol =>
    cases ht
    rfl
  | character | string | integer => cases ht

theorem eq_name {name : String} (h : Denotes lexeme (.identifier name)) : lexeme = name.toList := by
  generalize ht : Token.identifier name = t at h
  cases h with
  | word =>
    unfold wordToken at ht
    split at ht
    · cases ht
    · cases ht
      rw [String.toList_ofList]
  | character | string | integer | symbol => cases ht

/-- A spelling of an integer is a literal, and its value is that of the digits there. -/
theorem eq_literal {value : Nat} {isLong : Bool} (h : Denotes lexeme (.integer value isLong)) :
    ∃ r body, Radix.Body r body ∧ lexeme = r.literal body isLong ∧ value = r.value body := by
  generalize ht : Token.integer value isLong = t at h
  cases h with
  | integer hc hi =>
    obtain ⟨r, body, long, rest, hb, -, hl⟩ := exists_literal hc
    rw [hl] at hi
    subst hi
    cases ht
    exact ⟨r, body, hb, rfl, rfl⟩
  | word =>
    unfold wordToken at ht
    split at ht <;> cases ht
  | character | string | symbol => cases ht

end Denotes

/-- A quoted literal ends at the first quote like its own, whatever follows. -/
theorem splitQuoted_closed {quote : Char} {make : String → Token} {raw : List Char} (h : quote ∉ raw)
    (ds : List Char) : splitQuoted quote make (raw ++ quote :: ds) =
      .ok ⟨make (String.ofList raw), quote :: raw ++ [quote], ds⟩ := by
  have hraw : ∀ d ∈ raw, (d != quote) = true := fun d hd => bne_iff_ne.2 fun he => h (he ▸ hd)
  have hquote : Stops (· != quote) (quote :: ds) := by simp [Stops]
  obtain ⟨ht, hr⟩ := takeWhile_append_of_stops hraw hquote
  unfold splitQuoted
  rw [hr, ht]

theorem spells_integer {c : Char} {cs : List Char} (hc : c.isDigit = true) :
    let i := splitInteger (c :: cs)
    Spells i.taken [.integer i.value i.isLong] := by
  intro i
  obtain ⟨d, taken, ht⟩ := List.exists_cons_of_ne_nil (@splitInteger_taken_ne_nil c cs hc)
  obtain rfl : d = c := by
    have happend := splitInteger_append (c :: cs)
    rw [ht] at happend
    exact (List.cons.inj happend).1
  have halone : splitInteger i.taken = ⟨i.value, i.isLong, i.taken, []⟩ := splitInteger_alone hc
  rw [show i.taken = d :: taken from ht] at halone ⊢
  have htoken := @splitToken_of_isDigit d taken hc
  rw [halone] at htoken
  exact Spells.cons (splitLayout_word (Text.isWordChar_of_isDigit hc)) htoken (.done rfl)

namespace Spells

variable {raw ds : List Char} {ts : List Token}

/-- A quoted literal, of which the quote neither is blank nor begins a comment. -/
theorem quoted {quote : Char} {make : String → Token} (h : Spells ds ts) (hraw : quote ∉ raw)
    (hb : Text.isBlank quote = false) (hs : quote ≠ '/')
    (hq : ∀ cs, splitToken quote cs = splitQuoted quote make cs) :
    Spells (quote :: (raw ++ quote :: ds)) (make (String.ofList raw) :: ts) :=
  h.cons (splitLayout_cons hb hs) ((hq _).trans (splitQuoted_closed hraw ds))

theorem character (h : Spells ds ts) (hraw : '\x27' ∉ raw) :
    Spells ('\x27' :: (raw ++ '\x27' :: ds)) (.character (String.ofList raw) :: ts) :=
  h.quoted hraw (by decide) (by decide) fun _ => rfl

theorem string (h : Spells ds ts) (hraw : '\x22' ∉ raw) :
    Spells ('\x22' :: (raw ++ '\x22' :: ds)) (.string (String.ofList raw) :: ts) :=
  h.quoted hraw (by decide) (by decide) fun _ => rfl

end Spells

/-- A spelling of a token is this token alone. -/
theorem Denotes.spells {lexeme : List Char} {t : Token} (h : Denotes lexeme t) : Spells lexeme [t] := by
  cases h with
  | character hraw => exact Spells.character (.done rfl) hraw
  | string hraw => exact Spells.string (.done rfl) hraw
  | integer hc hi =>
    subst hi
    exact spells_integer hc
  | word hd hw =>
    have h := Spells.word (.done rfl) String.toList_ofList hd hw (show Stops _ [] by simp [Stops])
    simpa using h
  | @symbol sign =>
    have h := Spells.symbol (.done rfl) (show Stops sign.absorbs [] by simp [Stops])
    simpa using h

theorem Denotes.ne_nil {lexeme : List Char} {t : Token} (h : Denotes lexeme t) : lexeme ≠ [] := by
  intro hnil
  have hspells := h.spells
  rw [hnil, spells_nil_iff] at hspells
  cases hspells

end ClassText.Lexeme
