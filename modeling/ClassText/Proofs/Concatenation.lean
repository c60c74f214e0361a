import ClassText.Proofs.Lexeme.Place
import ClassText.Proofs.Lexeme.Seam

/-! Sources that are joined by a newline. The tokens of the whole are those of the first source and,
behind them, those of the second, moved down by the lines and on by the bytes of the first; and an
error of the second is moved in the same way. -/
namespace ClassText

/-- By how much places move when whole lines are put before a text. Columns stay. -/
structure Shift where
  lines : Nat
  bytes : Nat
deriving DecidableEq, Repr

namespace Shift

open Lexeme

variable (d : Shift)

def position (p : Position) : Position := ⟨p.line + d.lines, p.column, p.offset + d.bytes⟩

def span (s : Span) : Span := ⟨s.start + d.bytes, s.stop + d.bytes⟩

def located (l : Located) : Located := ⟨l.token, d.position l.position, d.span l.span⟩

/-- The same error, of which only the place has moved. -/
def error : LexicalError → LexicalError
  | .unknownToken c p s => .unknownToken c (d.position p) (d.span s)
  | .invalidLiteral literal p s => .invalidLiteral literal (d.position p) (d.span s)
  | .unterminatedComment p s => .unterminatedComment (d.position p) (d.span s)

def tail (t : Tail) : Tail := ⟨d.position t.position, t.text⟩

def step : Step → Step
  | .done => .done
  | .token l after => .token (d.located l) (d.tail after)
  | .error e => .error (d.error e)

theorem position_advance (p : Position) (c : Char) :
    (d.position p).advance c = d.position (p.advance c) := by
  unfold Position.advance position
  split
  · simp only [Position.mk.injEq, true_and]
    omega
  · simp only [Position.mk.injEq, true_and]
    omega

theorem position_after (p : Position) (cs : List Char) :
    (d.position p).after cs = d.position (p.after cs) := by
  induction cs generalizing p with
  | nil => rfl
  | cons c cs ih => rw [Position.after_cons, position_advance, ih, Position.after_cons]

theorem spanOver_position (p : Position) (cs : List Char) :
    (d.position p).spanOver cs = d.span (p.spanOver cs) := by
  unfold Position.spanOver
  rw [position_after]
  rfl

theorem toError_position (p : Position) (flaw : Flaw) :
    flaw.toError (d.position p) = d.error (flaw.toError p) := by
  cases flaw <;> simp only [Flaw.toError, spanOver_position, error]

/-- What a step finds moves with the place at which the text stands. -/
theorem step_tail (t : Tail) : (d.tail t).step = d.step t.step := by
  have htext : (d.tail t).text = t.text := rfl
  cases hl : (splitLayout t.text).2 with
  | nil =>
    rw [step_of_nil hl, step_of_nil (htext ▸ hl)]
    rfl
  | cons c cs =>
    cases hs : splitToken c cs with
    | error flaw => simp only [Tail.step, tail, hl, hs, position_after, toError_position, step]
    | ok s => simp only [Tail.step, tail, hl, hs, position_after, spanOver_position, step, located]

/-- The tokens of a text move with it, one by one. -/
theorem scan_tail (t : Tail) :
    (d.tail t).scan = ⟨t.scan.tokens.map d.located, t.scan.error.map d.error⟩ := by
  have hstep := d.step_tail t
  induction t using Tail.step_induct with
  | h t ih =>
    cases hs : t.step with
    | done =>
      rw [hs] at hstep
      rw [Tail.scan_of_done hs, Tail.scan_of_done hstep]
      rfl
    | error e =>
      rw [hs] at hstep
      rw [Tail.scan_of_error hs, Tail.scan_of_error hstep]
      rfl
    | token l after =>
      rw [hs] at hstep
      rw [Tail.scan_of_token hs, Tail.scan_of_token hstep, ih l after hs (d.step_tail after)]
      rfl

end Shift

namespace Lexeme

/-- How far a text and a newline behind it move what follows. -/
theorem position_behind (cs : List Char) : Position.origin.after (cs ++ ['\n']) =
    Shift.position ⟨cs.count '\n' + 1, String.utf8Len cs + 1⟩ .origin := by
  have hline := Position.line_after .origin cs
  have hoffset := Position.offset_after .origin cs
  rw [Position.after_append, Position.after_cons, Position.after_nil, Position.advance, if_pos rfl,
    hline, hoffset, Shift.position]
  rfl

/-- The scan of a source, a newline and another source is that of the first with that of the second
behind it. -/
theorem scan_append_newline (a b : String) (h : (Tail.ofSource a).scan.error = none) :
    let d : Shift := ⟨a.toList.count '\n' + 1, a.utf8ByteSize + 1⟩
    (Tail.ofSource (a ++ "\n" ++ b)).scan =
      ⟨(Tail.ofSource a).scan.tokens ++ (Tail.ofSource b).scan.tokens.map d.located,
        (Tail.ofSource b).scan.error.map d.error⟩ := by
  intro d
  have hplace : Position.origin.after (a.toList ++ ['\n']) = d.position .origin := by
    have hbehind := position_behind a.toList
    rwa [String.utf8Len_toList] at hbehind
  have hmoved : Tail.scan ⟨d.position .origin, b.toList⟩ =
      ⟨(Tail.ofSource b).scan.tokens.map d.located, (Tail.ofSource b).scan.error.map d.error⟩ :=
    d.scan_tail (Tail.ofSource b)
  rw [scan_append_source a b h, hplace, hmoved]
  rfl

/-- Whatever the first source ends with and the second begins with, a newline keeps them apart. -/
theorem tokenize_append_newline {a : String} {as : List Located} (h : tokenize a = .ok as) (b : String) :
    let d : Shift := ⟨a.toList.count '\n' + 1, a.utf8ByteSize + 1⟩
    tokenize (a ++ "\n" ++ b) =
      ((tokenize b).map fun bs => as ++ bs.map d.located).mapError d.error := by
  intro d
  have hscan := tokenize_eq_ok_iff.1 h
  have hall := scan_append_newline a b (by rw [hscan])
  rw [hscan] at hall
  cases hb : tokenize b with
  | ok bs =>
    rw [tokenize_eq_ok_iff.1 hb] at hall
    exact tokenize_eq_ok_iff.2 hall
  | error e =>
    have he := tokenize_eq_error_iff.1 hb
    refine tokenize_eq_error_iff.2 ?_
    rw [hall]
    simp only [he]
    rfl

/-- The first source ends in a line comment that opens a block comment, behind a letter of two bytes.
The second closes none, goes on with an operator and ends in a literal without an end. -/
theorem tokenize_append_newline_open_comment :
    let a := "ä >\n>/ // /*"
    let b := "*/ =\n'x"
    let as : List Located := [⟨.identifier "ä", ⟨1, 1, 0⟩, ⟨0, 2⟩⟩, ⟨.symbol .gt, ⟨1, 3, 3⟩, ⟨3, 4⟩⟩,
      ⟨.symbol .gt, ⟨2, 1, 5⟩, ⟨5, 6⟩⟩, ⟨.symbol .slash, ⟨2, 2, 6⟩, ⟨6, 7⟩⟩]
    let d : Shift := ⟨a.toList.count '\n' + 1, a.utf8ByteSize + 1⟩
    d = ⟨2, 14⟩ ∧ tokenize a = .ok as ∧
      tokenize b = .error (.invalidLiteral "'x" ⟨2, 1, 5⟩ ⟨5, 7⟩) ∧
      tokenize (a ++ "\n" ++ b) =
        ((tokenize b).map fun bs => as ++ bs.map d.located).mapError d.error := by
  intro a b as d
  have ha : tokenize a = .ok as := by decide +kernel
  exact ⟨by decide +kernel, ha, by decide +kernel, tokenize_append_newline ha b⟩

end Lexeme
end ClassText
