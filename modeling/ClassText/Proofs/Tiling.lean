import ClassText.Proofs.Lexeme.Place

/-! The tokens of a source tile it. They stand in it one behind the other, each as the text that its
stretch marks, and nothing but layout stands before, between and behind them. -/
namespace ClassText

open Lexeme

namespace Span

/-- The stretches from `start` to the first of the given ones, and from each of them to the next. -/
def gaps (start : Nat) : List Span → List Span
  | [] => []
  | s :: ss => ⟨start, s.start⟩ :: gaps s.stop ss

/-- Where the last of the stretches ends, or `start` if there is none. -/
def lastStop (start : Nat) : List Span → Nat
  | [] => start
  | s :: ss => lastStop s.stop ss

/-- The stretch from the last of the given ones to the end of the source. -/
def behind (ss : List Span) (source : String) : Span := ⟨lastStop 0 ss, source.utf8ByteSize⟩

end Span

/-- The tokens stand in the source in its order, without overlap, and all other text is layout. -/
structure Tiles (ls : List Located) (source : String) : Prop where
  stands : ∀ l ∈ ls, l.StandsIn source
  nonempty : ∀ l ∈ ls, l.span.start < l.span.stop
  ordered : ls.Pairwise fun l m => l.span.start < m.span.start ∧ l.span.stop ≤ m.span.start
  between : ∀ g ∈ Span.gaps 0 (ls.map (·.span)), g.Within source ∧ Gap (g.textIn source).toList
  behind : (Span.behind (ls.map (·.span)) source).Within source ∧
    LastGap ((Span.behind (ls.map (·.span)) source).textIn source).toList

namespace Lexeme.Laid

variable {before cs : List Char} {ls : List Located} {source : String}

theorem span_of_head {gap lexeme : List Char} {l : Located}
    (hp : l.position = Position.origin.after (before ++ gap)) (hs : l.span = l.position.spanOver lexeme) :
    l.span.start = String.utf8Len (before ++ gap) ∧
      l.span.stop = String.utf8Len (before ++ gap ++ lexeme) := by
  rw [Located.CutFrom.span_eq hp hs, String.utf8Len_append (before ++ gap)]
  exact ⟨rfl, rfl⟩

theorem nonempty (h : Laid before cs ls) : ∀ l ∈ ls, l.span.start < l.span.stop := by
  induction h with
  | done => simp
  | @token before gap lexeme rest l ls hgap hd hp hs _ ih =>
    obtain ⟨hstart, hstop⟩ := span_of_head hp hs
    intro m hm
    cases List.mem_cons.1 hm with
    | inl he =>
      obtain ⟨c, lexeme, rfl⟩ := List.exists_cons_of_ne_nil hd.ne_nil
      have hc := c.utf8Size_pos
      rw [he, hstart, hstop, String.utf8Len_append (before ++ gap), String.utf8Len_cons]
      omega
    | inr hm => exact ih m hm

theorem le_start (h : Laid before cs ls) : ∀ l ∈ ls, String.utf8Len before ≤ l.span.start := by
  induction h with
  | done => simp
  | @token before gap lexeme rest l ls hgap hd hp hs _ ih =>
    obtain ⟨hstart, -⟩ := span_of_head hp hs
    intro m hm
    cases List.mem_cons.1 hm with
    | inl he =>
      rw [he, hstart, String.utf8Len_append]
      omega
    | inr hm =>
      have hle := ih m hm
      rw [String.utf8Len_append, String.utf8Len_append] at hle
      omega

/-- A token ends where or before the next begins, and so before all that follow. -/
theorem ordered (h : Laid before cs ls) :
    ls.Pairwise fun l m => l.span.start < m.span.start ∧ l.span.stop ≤ m.span.start := by
  have hnonempty := h.nonempty
  induction h with
  | done => exact .nil
  | @token before gap lexeme rest l ls hgap hd hp hs hrest ih =>
    obtain ⟨-, hstop⟩ := span_of_head hp hs
    refine .cons ?_ (ih hrest.nonempty)
    intro m hm
    have hl := hnonempty l List.mem_cons_self
    have hle := hrest.le_start m hm
    rw [← hstop] at hle
    omega

/-- Before each token stands a gap. -/
theorem between (h : Laid before cs ls) (hsource : source.toList = before ++ cs) :
    ∀ g ∈ Span.gaps (String.utf8Len before) (ls.map (·.span)),
      g.Within source ∧ Gap (g.textIn source).toList := by
  induction h with
  | done => simp [Span.gaps]
  | @token before gap lexeme rest l ls hgap hd hp hs _ ih =>
    obtain ⟨hstart, hstop⟩ := span_of_head hp hs
    have hsplit : source.toList = before ++ gap ++ (lexeme ++ rest) := by
      simpa only [List.append_assoc] using hsource
    intro g hg
    rw [List.map_cons, Span.gaps, hstart, hstop] at hg
    cases List.mem_cons.1 hg with
    | inl he =>
      rw [he, String.utf8Len_append, Span.textIn_of_append hsplit, String.toList_ofList]
      exact ⟨Span.within_of_append hsplit, hgap⟩
    | inr hg => exact ih (by simpa only [List.append_assoc] using hsource) g hg

/-- Behind the last token stands what may end a text. -/
theorem behind (h : Laid before cs ls) (hsource : source.toList = before ++ cs) :
    let g : Span := ⟨Span.lastStop (String.utf8Len before) (ls.map (·.span)), source.utf8ByteSize⟩
    g.Within source ∧ LastGap (g.textIn source).toList := by
  induction h with
  | @done before cs hcs =>
    have hsplit : source.toList = before ++ cs ++ [] := by simpa using hsource
    have hsize : source.utf8ByteSize = String.utf8Len before + String.utf8Len cs := by
      rw [← source.utf8Len_toList, hsource, String.utf8Len_append]
    rw [List.map_nil, Span.lastStop, hsize]
    refine ⟨Span.within_of_append hsplit, ?_⟩
    rwa [Span.textIn_of_append hsplit, String.toList_ofList]
  | @token before gap lexeme rest l ls hgap hd hp hs _ ih =>
    obtain ⟨-, hstop⟩ := span_of_head hp hs
    rw [List.map_cons, Span.lastStop, hstop]
    exact ih (by simpa only [List.append_assoc] using hsource)

end Lexeme.Laid

/-- Nothing of a source without lexical errors is lost, and nothing stands in two tokens. -/
theorem tiles_of_tokenize {source : String} {ls : List Located} (h : tokenize source = .ok ls) :
    Tiles ls source := by
  have hlaid := laid_of_tokenize h
  exact {
    stands := standsIn_of_tokenize h
    nonempty := hlaid.nonempty
    ordered := hlaid.ordered
    between := hlaid.between rfl
    behind := hlaid.behind rfl }

/-- Layout of every kind around a name of two bytes, and a line comment at the end. -/
theorem tiles_of_tokenize_open_line :
    let source := "\u2003/* // */ä>>//é\n\t'/*' // end"
    let ls : List Located := [⟨.identifier "ä", ⟨1, 10, 11⟩, ⟨11, 13⟩⟩,
      ⟨.symbol .shr, ⟨1, 11, 13⟩, ⟨13, 15⟩⟩, ⟨.character "/*", ⟨2, 2, 21⟩, ⟨21, 25⟩⟩]
    tokenize source = .ok ls ∧ Tiles ls source := by
  intro source ls
  have h : tokenize source = .ok ls := by decide +kernel
  exact ⟨h, tiles_of_tokenize h⟩

end ClassText
