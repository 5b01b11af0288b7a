import FaultDesk.Text.Word

/-!
Templates: a name of word characters between double braces stands for a value. What a value says is
not looked at again.
-/

namespace FaultDesk

namespace Template

/-- The name of the placeholder a text starts with, and what follows it. -/
def placeholder? : List Char → Option (String × List Char)
  | '\x7b' :: '\x7b' :: rest =>
    let name := rest.takeWhile isWord
    match rest.dropWhile isWord with
    | '\x7d' :: '\x7d' :: after => if name.isEmpty then none else some (String.ofList name, after)
    | _ => none
  | _ => none

theorem length_lt_of_placeholder? {cs rest : List Char} {name : String}
    (h : placeholder? cs = some (name, rest)) : rest.length < cs.length := by
  unfold placeholder? at h
  split at h
  next body =>
    have hb : (body.dropWhile isWord).length ≤ body.length :=
      (List.dropWhile_sublist _).length_le
    dsimp only at h
    split at h
    next after hd =>
      split at h
      next => simp at h
      next =>
        obtain ⟨-, rfl⟩ := Prod.mk.inj (Option.some.inj h)
        rw [hd] at hb
        simp only [List.length_cons] at hb ⊢
        omega
    next => simp at h
  next => simp at h

/-- A part of a template: a character that stays, or a name whose value is put in its place. -/
inductive Piece where
  | kept (c : Char)
  | named (name : String)
deriving DecidableEq, Repr

/-- Cuts a text into its parts, from left to right; behind a placeholder the text is looked at anew. -/
def pieces (cs : List Char) : List Piece :=
  match cs with
  | [] => []
  | c :: rest =>
    match h : placeholder? (c :: rest) with
    | some (name, after) =>
      have := length_lt_of_placeholder? h
      .named name :: pieces after
    | none => .kept c :: pieces rest
termination_by cs.length
decreasing_by
  · simpa using this
  · simp

/-- The characters that a part becomes. -/
def Piece.chars (value : String → String) : Piece → List Char
  | kept c => [c]
  | named name => (value name).toList

/-- The name of a placeholder. -/
def Piece.name? : Piece → Option String
  | kept _ => none
  | named name => some name

/-- The names of the placeholders of a text. -/
def names (cs : List Char) : List String := (pieces cs).filterMap Piece.name?

/-- Puts values in the place of placeholders. -/
def expand (value : String → String) (cs : List Char) : List Char :=
  (pieces cs).flatMap (Piece.chars value)

/-- The text of a template. -/
def fill (template : String) (value : String → String) : String :=
  String.ofList (expand value template.toList)

end Template

end FaultDesk
