/-!
# Layout of generated text

Generated text is a list of pieces.  A margin is the white space at the start of
a line; how wide it is depends on the layout alone.  The output can be switched
off and on again: what stands between is not written.
-/

set_option autoImplicit false

namespace StructuredText.Code

/-- How generated text is laid out. -/
structure Layout where
  /-- The spaces of one level of indentation. -/
  width : Nat := 2
  /-- Whether a comment names each unit ahead of its code. -/
  comments : Bool := true

inductive Piece where
  | text (text : String)
  | margin (depth : Nat)
  | switch (on : Bool)
deriving DecidableEq, Repr

namespace Piece

/-- The text of a piece; a switch has none. -/
def render (width : Nat) : Piece → String
  | .text content => content
  | .margin depth => String.ofList (List.replicate (depth * width) ' ')
  | .switch _ => ""

/-- The pieces that are written, if the output is `on` at the start. -/
def visible : (on : Bool) → List Piece → List Piece
  | _, [] => []
  | _, .switch on :: rest => visible on rest
  | true, piece :: rest => piece :: visible true rest
  | false, _ :: rest => visible false rest

/-- The text of a list of pieces; the output starts switched on. -/
def renderAll (width : Nat) (pieces : List Piece) : String :=
  String.join ((visible true pieces).map (render width))

/-- A line of plain text at a depth. -/
def textLine (depth : Nat) (content : String) : List Piece :=
  [.margin depth, .text (content ++ "\n")]

/-- Lists of pieces with a separator between them. -/
def separate (separator : List Piece) : List (List Piece) → List Piece
  | [] => []
  | [last] => last
  | first :: rest => first ++ separator ++ separate separator rest

end Piece

end StructuredText.Code
