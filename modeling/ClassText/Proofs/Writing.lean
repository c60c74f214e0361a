import ClassText.Proofs.Canonical.Spacing
import ClassText.Proofs.Lexeme.Alone

/-! Tokens written one behind the other with layout between them. Whatever the layout is made of, the
text is cut into the same tokens again. -/
namespace ClassText

open Lexeme

/-- Whether the canonical text stands for the token: a name is no reserved word, and what is quoted does
not hold the quote that would end it. -/
def Token.isWritable : Token → Bool
  | .identifier name => isWord name
  | .character raw => !raw.toList.contains '\x27'
  | .string raw => !raw.toList.contains '\x22'
  | _ => true

/-- The first layout, and then each token with the layout behind it. -/
def layOut (first : String) : List (Token × String) → String
  | [] => first
  | (t, behind) :: items => first ++ t.text ++ layOut behind items

/-- Whether the text begins with a blank. -/
def beginsBlank (s : String) : Bool := s.toList.head?.any Text.isBlank

/-- Writable tokens that are kept apart by blanks. Comments may stand behind these blanks, and before
the first token. -/
structure Spaced (first : String) (items : List (Token × String)) : Prop where
  writable : ∀ i ∈ items, i.1.isWritable = true
  ahead : Gap first.toList
  gaps : ∀ i ∈ items, Gap i.2.toList
  between : ∀ i ∈ items.dropLast, beginsBlank i.2 = true
  last : ∀ i ∈ items.getLast?, i.2 = "" ∨ beginsBlank i.2 = true

/-- The text is at its end, or a blank stands at its head. -/
def Parted (cs : List Char) : Prop := ∀ c ∈ cs.head?, Text.isBlank c = true

theorem Parted.stops {cs : List Char} {p : Char → Bool} (h : Parted cs)
    (hp : ∀ c, Text.isBlank c = true → p c = false) : Stops p cs :=
  fun c hc => hp c (h c hc)

theorem parted_append_of_beginsBlank {s : String} (h : beginsBlank s = true) (cs : List Char) :
    Parted (s.toList ++ cs) := by
  unfold beginsBlank at h
  cases hs : s.toList with
  | nil => simp [hs] at h
  | cons c ds => simpa [Parted, hs] using h

namespace Lexeme.Spells

/-- A writable token is spelled by its canonical text, where nothing can be read together with it. -/
theorem text {t : Token} (ht : t.isWritable = true) {cs : List Char} {ts : List Token}
    (h : Spells cs ts) (ha : Parted cs) : Spells (t.text.toList ++ cs) (t :: ts) := by
  have hword : Stops Text.isWordChar cs := ha.stops fun _ => Text.isWordChar_of_isBlank
  cases t with
  | keyword k => exact h.keyword hword
  | symbol s => exact h.symbol (ha.stops fun _ => s.absorbs_of_isBlank)
  | identifier name => exact h.identifier ht hword
  | integer value isLong => exact h.integer value isLong hword
  | character raw =>
    have hraw : '\x27' ∉ raw.toList := by simpa [Token.isWritable] using ht
    simpa [Token.text] using h.character hraw
  | string raw =>
    have hraw : '\x22' ∉ raw.toList := by simpa [Token.isWritable] using ht
    simpa [Token.text] using h.string hraw

end Lexeme.Spells

namespace Spaced

variable {first behind : String} {t : Token} {items : List (Token × String)}

theorem tail (h : Spaced first ((t, behind) :: items)) : Spaced behind items where
  writable i hi := h.writable i (List.mem_cons_of_mem _ hi)
  ahead := h.gaps _ List.mem_cons_self
  gaps i hi := h.gaps i (List.mem_cons_of_mem _ hi)
  between i hi := by
    apply h.between i
    cases items with
    | nil => cases hi
    | cons j items => exact List.mem_cons_of_mem _ hi
  last i hi := by
    apply h.last i
    cases items with
    | nil => cases hi
    | cons j items => rwa [List.getLast?_cons_cons]

/-- What stands behind a token cannot be read together with it. -/
theorem parted (h : Spaced first ((t, behind) :: items)) : Parted (layOut behind items).toList := by
  cases items with
  | nil =>
    rw [layOut]
    cases h.last _ rfl with
    | inl he => simp [Parted, show behind = "" from he]
    | inr hb => simpa using parted_append_of_beginsBlank hb []
  | cons i items =>
    rw [layOut, String.append_assoc, String.toList_append]
    exact parted_append_of_beginsBlank (h.between _ List.mem_cons_self) _

/-- The text spells the tokens: a gap is passed over, and each token ends where the next gap begins. -/
theorem spells (h : Spaced first items) : Spells (layOut first items).toList (items.map (·.1)) := by
  induction items generalizing first with
  | nil =>
    apply Spells.done
    have hsplit := h.ahead.splitLayout_append []
    rw [List.append_nil] at hsplit
    rw [layOut, hsplit]
    rfl
  | cons i items ih =>
    obtain ⟨t, behind⟩ := i
    have htoken := (ih h.tail).text (h.writable _ List.mem_cons_self) h.parted
    rw [layOut, String.append_assoc, String.toList_append, String.toList_append]
    apply htoken.of_layout
    rw [h.ahead.splitLayout_append]

end Spaced

/-- A text that is laid out from tokens is cut into them. -/
theorem tokenize_layOut {first : String} {items : List (Token × String)} (h : Spaced first items) :
    ∃ ls, tokenize (layOut first items) = .ok ls ∧ ls.map (·.token) = items.map (·.1) :=
  tokenize_iff.2 h.spells

/-- Slashes, quotes and marks of comments inside of comments and literals, and names that go on behind
other words. -/
theorem tokenize_layOut_marks :
    let first := "/*'//**/"
    let items := [(.symbol .slash, " "), (.keyword .new, "\t//*'\n"), (.identifier "newä", "\n\n"),
      (.integer 1180591620717411303424 true, " /**/"), (.character "*/\n\"", "\u2003/***/"),
      (.string "'//", "")]
    Spaced first items ∧
      ∃ ls, tokenize (layOut first items) = .ok ls ∧ ls.map (·.token) = items.map (·.1) := by
  intro first items
  have h : Spaced first items := {
    writable := by decide +kernel
    ahead := by
      simp only [first]
      exact @Gap.block ['\x27', '/', '/', '*'] [] (by decide) .nil
    gaps := by
      simp only [items, List.forall_mem_cons]
      refine ⟨?_, ?_, ?_, ?_, ?_, ?_, by simp⟩
      · exact .blank rfl .nil
      · exact .blank rfl (@Gap.line ['*', '\x27'] [] (by decide) .nil)
      · exact .blank rfl (.blank rfl .nil)
      · exact .blank rfl (@Gap.block [] [] (by decide) .nil)
      · exact .blank rfl (@Gap.block ['*'] [] (by decide) .nil)
      · exact .nil
    between := by decide +kernel
    last := by decide +kernel }
  exact ⟨h, tokenize_layOut h⟩

end ClassText
