/-!
# Splitting texts

A text is split at every occurrence of a character. There is always one part more
than there are occurrences, so an empty text has one empty part, and joining the
parts again gives the text back.
-/

namespace ArrowScript.Text

/-- The parts of a text between the occurrences of a character. -/
def split (separator : Char) : List Char → List (List Char)
  | [] => [[]]
  | character :: rest =>
    if character = separator then [] :: split separator rest
    else
      match split separator rest with
      | [] => [[character]]
      | part :: further => (character :: part) :: further

/-- The line ends of all conventions as line feeds: a carriage return with or without
a line feed after it is one line end. -/
def unifyLineEnds : List Char → List Char
  | '\r' :: '\n' :: rest => '\n' :: unifyLineEnds rest
  | '\r' :: rest => '\n' :: unifyLineEnds rest
  | character :: rest => character :: unifyLineEnds rest
  | [] => []

end ArrowScript.Text
