/-!
# Grids

A screen is a grid of cells, each with one character and a colour. What is drawn is cut at the edges
of the place where it is drawn.

Every character takes one cell here. On a real screen a wide character takes two cells, a combining
one shares the cell before it and a control character is dropped; so what is said of drawn rows holds
of texts without such characters.
-/

namespace CardArchive.Screen

/-- The colours that are used; `reset` is the one of the terminal. -/
inductive Color where
  /-- No colour of its own. -/
  | reset
  /-- The colour of frames. -/
  | blue
  /-- A phase or a gauge. -/
  | cyan
  | magenta
  | yellow
  | green
  /-- What is worked on. -/
  | gray
  /-- What is older or covered. -/
  | darkGray
  | white
  deriving DecidableEq

/-- A cell of the screen. -/
structure Cell where
  symbol : Char
  color : Color
  deriving DecidableEq

/-- A row of cells. -/
abbrev Line := List Cell

/-- Rows, one below the other. -/
abbrev Grid := List Line

/-- An empty cell. -/
def blank : Cell := ⟨' ', .reset⟩

/-- The cells of a text in one colour, one for each character. -/
def styled (color : Color) (s : String) : Line := s.toList.map fun c => ⟨c, color⟩

/-- A row with a given number of cells: cut, or filled up with empty ones. -/
def fitLine (width : Nat) (line : Line) : Line :=
  line.take width ++ List.replicate (width - line.length) blank

/-- A grid with a given number of rows and cells. -/
def fit (width height : Nat) (g : Grid) : Grid :=
  (g.take height ++ List.replicate (height - g.length) []).map (fitLine width)

theorem length_fitLine (width : Nat) (line : Line) : (fitLine width line).length = width := by
  simp only [fitLine, List.length_append, List.length_take, List.length_replicate]
  omega

theorem length_fit (width height : Nat) (g : Grid) : (fit width height g).length = height := by
  simp only [fit, List.length_map, List.length_append, List.length_take, List.length_replicate]
  omega

/-- The text of a row. -/
def lineText (line : Line) : String := String.ofList (line.map Cell.symbol)

/-! ## Frames -/

/-- A cell of a frame. -/
def frameCell (c : Char) : Cell := ⟨c, .blue⟩

/-- The upper or lower edge of a frame: its corners and, between them, a title and a line. -/
def edge (width : Nat) (left right : Char) (title : String) : Line :=
  let inner := width - 2
  let middle := (styled .blue title).take inner
  (frameCell left :: middle ++ List.replicate (inner - middle.length) (frameCell '─')
    ++ [frameCell right]).take width

/-- A row between the two sides of a frame. -/
def between (width : Nat) (line : Line) : Line :=
  (frameCell '│' :: fitLine (width - 2) line ++ [frameCell '│']).take width

/-- A frame with a title around a grid. -/
def framed (title : String) (width height : Nat) (inner : Grid) : Grid :=
  let top := edge width '┌' '┐' title
  let bottom := edge width '└' '┘' ""
  ((top :: (fit (width - 2) (height - 2) inner).map (between width)) ++ [bottom]).take height

end CardArchive.Screen
