import ScriptForms.Token.Basic

/-!
# Compact layout

The compact layout of a text puts one space between the items of a form and none inside its
delimiters. At the top level a blank line separates a form from what follows it, a comment stands
on a line of its own, and a reader tag stays on the line of its form. The tokens are those of the
text.
-/

namespace ScriptForms

/-- What the top level of a text ends with. -/
inductive LastItem where
  | nothing
  | form
  | comment
  deriving DecidableEq, Inhabited

/-- Where a layout stands. -/
structure LayoutState where
  /-- The delimiters that are open, innermost first, with their offsets. -/
  stack : List (Bracket × Nat) := []
  /-- The last item of the top level. -/
  last : LastItem := .nothing
  /-- Whether a space is due before the next item of a form. -/
  spaceDue : Bool := false
  /-- Whether the next item of the top level belongs to a reader tag. -/
  glued : Bool := false
  deriving DecidableEq, Inhabited

namespace LayoutState

/-- What stands between the tokens so far and a token that closes nothing. -/
def gap (state : LayoutState) : List Char :=
  if state.stack.isEmpty then
    if state.glued then [' '] else if state.last = .form then ['\n', '\n'] else []
  else if state.spaceDue then [' '] else []

/-- Whether an atom is a reader tag: `#` and more, and no regular expression. -/
def isReaderTag : List Char → Bool
  | '#' :: '"' :: _ => false
  | '#' :: _ :: _ => true
  | _ => false

/-- The text a token adds, and the state after it. -/
def add (state : LayoutState) (offset : Nat) :
    Token → Except LayoutError (List Char × LayoutState)
  | .opening bracket =>
    .ok (state.gap ++ [bracket.opening],
      { state with stack := (bracket, offset) :: state.stack, spaceDue := false, glued := false })
  | .closing bracket =>
    match state.stack with
    | (innermost, _) :: stack =>
      if innermost = bracket then
        .ok ([bracket.closing],
          { stack, last := if stack.isEmpty then .form else state.last, spaceDue := true,
            glued := false })
      else .error (.unbalanced offset)
    | [] => .error (.unbalanced offset)
  | .atom text =>
    let top := state.stack.isEmpty
    let tag := isReaderTag text
    .ok (state.gap ++ text,
      { state with
        last := if top && !tag then .form else state.last, spaceDue := true, glued := top && tag })
  | .comment text =>
    .ok (state.gap ++ text ++ ['\n'],
      { state with
        last := if state.stack.isEmpty then .comment else state.last, spaceDue := false,
        glued := false })

/-- The text of the remaining tokens. -/
def layOut (state : LayoutState) : List (Nat × Token) → Except LayoutError (List Char)
  | [] =>
    match state.stack with
    | (_, offset) :: _ => .error (.unbalanced offset)
    | [] => .ok (if state.last = .form then ['\n'] else [])
  | (offset, token) :: tokens => do
    let (text, state) ← state.add offset token
    let rest ← state.layOut tokens
    return text ++ rest

end LayoutState

/-- How a printed program is laid out. -/
inductive Layout where
  /-- One line per form. -/
  | compact
  /-- As printed. -/
  | raw
  deriving DecidableEq, Inhabited

namespace Layout

/-- The compact layout of a text. -/
def compactText (text : List Char) : Except LayoutError (List Char) := do
  let tokens ← Token.scan text
  ({} : LayoutState).layOut tokens

/-- Lays out a text. -/
def apply (layout : Layout) (text : String) : Except LayoutError String :=
  match layout with
  | .raw => .ok text
  | .compact => String.ofList <$> compactText text.toList

end Layout

end ScriptForms
