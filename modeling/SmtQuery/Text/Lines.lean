/-!
# Lines

A line ends at a line feed.  A carriage return directly before the line feed
belongs to the ending; anywhere else it is an ordinary character.  A final line
feed ends the last line and does not open another one.
-/

namespace SmtQuery
namespace Text

/-- Removes one carriage return from the end of a line. -/
def dropReturn (line : List Char) : List Char :=
  if line.getLast? = some '\r' then line.dropLast else line

/-- Splits a text into its lines.  `line` holds the characters of the current
line read so far, last one first. -/
def linesFrom (line : List Char) : List Char → List (List Char)
  | [] => if line = [] then [] else [line.reverse]
  | c :: rest =>
    if c = '\n' then dropReturn line.reverse :: linesFrom [] rest else linesFrom (c :: line) rest

/-- The lines of a text, without their endings. -/
def lines (text : List Char) : List (List Char) := linesFrom [] text

end Text
end SmtQuery
