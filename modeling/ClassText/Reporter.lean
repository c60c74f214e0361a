import ClassText.Diagnostic

/-! Printing reports. Whatever prints them keeps the sources that they are about. -/
namespace ClassText

/-- A printer of reports. The sources that it keeps have numbers, by which marks refer to them. -/
structure Reporter (σ : Type) where
  /-- No source is kept. -/
  empty : σ
  /-- Keep a source, given with its path. The answer is its number. -/
  add : σ → String → String → Nat × σ
  /-- The report of a diagnostic, or why it cannot be printed. -/
  report : σ → Diagnostic → Except String String

namespace Reporter

/-- The reports of diagnostics. If one cannot be printed, those before it and the reason. -/
def reportAll (r : Reporter σ) (kept : σ) : List Diagnostic → Except (List String) (List String)
  | [] => .ok []
  | d :: ds =>
    match r.report kept d with
    | .error reason => .error [reason]
    | .ok text =>
      match reportAll r kept ds with
      | .error messages => .error (text :: messages)
      | .ok texts => .ok (text :: texts)

/-- A reporter that numbers sources from zero. Of a report it prints nothing but the message. -/
def plain : Reporter (List (String × String)) where
  empty := []
  add kept path text := (kept.length, kept ++ [(path, text)])
  report _ d := .ok d.message

end Reporter
end ClassText
