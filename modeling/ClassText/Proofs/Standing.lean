import ClassText.Cursor.Character
import ClassText.Proofs.Lexeme.Place
import Mathlib.Algebra.GroupWithZero.Nat

/-! Where a character cursor stands. It holds no index, only what is ahead of it; yet whatever is asked of
it, also after moves that have run out of text, it stands behind some number of characters of its
source, and its position is that of this place. -/
namespace ClassText.CharacterCursor

/-- The cursor stands behind the first `i` characters of a text. -/
structure StandsAt (c : CharacterCursor) (text : List Char) (i : Nat) : Prop where
  index_le : i ≤ text.length
  ahead : c.ahead = text.drop i
  line : c.position.line = 1 + (text.take i).count '\n'
  column : c.position.column = 1 + ((text.take i).reverse.takeWhile (· ≠ '\n')).length
  offset : c.position.offset = (String.ofList (text.take i)).utf8ByteSize

/-- The cursor behind the first `i` characters, or behind all of them if there are fewer. -/
def atIndex (text : List Char) (i : Nat) : CharacterCursor := ⟨.after .origin (text.take i), text.drop i⟩

namespace Operation

/-- How many characters an operation asks to move by. -/
def distance : Operation → Nat
  | .advance => 1
  | .advanceBy n => n
  | _ => 0

end Operation

variable {text : List Char} {i : Nat}

theorem standsAt_atIndex (text : List Char) (i : Nat) :
    (atIndex text i).StandsAt text (min i text.length) where
  index_le := Nat.min_le_right _ _
  ahead := by
    rw [atIndex, List.drop_eq_drop_iff]
    omega
  line := by rw [atIndex, Position.line_after, ← List.take_eq_take_min]; rfl
  column := by rw [atIndex, Position.column_after_origin, ← List.take_eq_take_min]
  offset := by
    rw [atIndex, Position.offset_after, ← List.take_eq_take_min, ← (String.ofList _).utf8Len_toList,
      String.toList_ofList, Position.origin, Nat.zero_add]

/-- A move passes over as many characters as there are, and is a fault if they are too few. -/
theorem advanceBy_eq (n : Nat) (c : CharacterCursor) : advanceBy n c =
    (if n ≤ c.ahead.length then .ok () else .error .outOfBounds,
      ⟨c.position.after (c.ahead.take n), c.ahead.drop n⟩) := by
  induction n generalizing c with
  | zero => simp [advanceBy]
  | succ n ih =>
    obtain ⟨p, cs⟩ := c
    cases cs with
    | nil => simp [advanceBy]
    | cons x cs => simp [advanceBy, ih]

theorem advanceBy_atIndex (n : Nat) (text : List Char) (i : Nat) :
    (advanceBy n (atIndex text i)).2 = atIndex text (i + n) := by
  rw [advanceBy_eq, atIndex, atIndex, ← Position.after_append, List.drop_drop, ← List.take_add]

/-- Two moves in turn come to where one over both distances comes. -/
theorem advanceBy_add (m n : Nat) (c : CharacterCursor) :
    (advanceBy n (advanceBy m c).2).2 = (advanceBy (m + n) c).2 := by
  simp only [advanceBy_eq, ← Position.after_append, List.drop_drop, ← List.take_add]

/-- One operation moves the index by its distance, and a look not at all. -/
theorem perform_atIndex (text : List Char) (i : Nat) (o : Operation) :
    ((atIndex text i).perform o).2 = atIndex text (i + o.distance) := by
  cases o with
  | advance => exact advanceBy_atIndex 1 text i
  | advanceBy n => exact advanceBy_atIndex n text i
  | _ => rfl

theorem performAll_atIndex (text : List Char) (i : Nat) (os : List Operation) :
    (atIndex text i).performAll os = atIndex text (i + (os.map (·.distance)).sum) := by
  induction os generalizing i with
  | nil => rfl
  | cons o os ih =>
    have hstep : (atIndex text i).performAll (o :: os) =
        CharacterCursor.performAll ((atIndex text i).perform o).2 os := rfl
    rw [hstep, perform_atIndex, ih, List.map_cons, List.sum_cons, Nat.add_assoc]

/-- Whatever is asked of the cursor of a source, it stands behind as many characters as it was asked to
move by in all, or at the end of the source. From there a move by `n` comes `n` characters further if
there are so many, and else is a fault that leaves the cursor at the end; two moves come to where one
over both distances comes; and no look moves it. -/
theorem standsAt_performAll (source : String) (os : List Operation) :
    let text := source.toList
    let i := min (os.map (·.distance)).sum text.length
    let c := (ofSource source).performAll os
    c.StandsAt text i ∧
    (∀ n, (advanceBy n c).1 = (if i + n ≤ text.length then .ok () else .error .outOfBounds) ∧
      (advanceBy n c).2.StandsAt text (min (i + n) text.length)) ∧
    (∀ m n, (advanceBy n (advanceBy m c).2).2 = (advanceBy (m + n) c).2) ∧
    (∀ n, (c.perform (.currentAt n)).2 = c) ∧ (∀ n, (c.perform (.hasNextAt n)).2 = c) ∧
    ∀ test, (c.perform (.currentIs test)).2 = c := by
  intro text i c
  have hc : c = atIndex text (os.map (·.distance)).sum := by
    have h := performAll_atIndex text 0 os
    rwa [Nat.zero_add] at h
  have hstands : c.StandsAt text i := hc ▸ standsAt_atIndex text _
  refine ⟨hstands, fun n => ⟨?_, ?_⟩, fun m n => advanceBy_add m n c, fun _ => rfl, fun _ => rfl, fun _ => rfl⟩
  · rw [advanceBy_eq, hstands.ahead, List.length_drop]
    have hle := hstands.index_le
    have hiff : n ≤ text.length - i ↔ i + n ≤ text.length := by omega
    simp only [hiff]
  · have hmin : min (i + n) text.length = min ((os.map (·.distance)).sum + n) text.length := by omega
    rw [hc, advanceBy_atIndex, hmin]
    exact standsAt_atIndex text _

end ClassText.CharacterCursor
