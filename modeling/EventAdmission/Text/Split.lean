/-!
# Parts of a text

A text is cut at every occurrence of a separator; there is always a part.
-/

namespace EventAdmission.Text

def splitAt (separator : Char) : List Char → List (List Char)
  | [] => [[]]
  | c :: rest =>
    if c = separator then [] :: splitAt separator rest
    else
      match splitAt separator rest with
      | [] => [[c]]
      | part :: parts => (c :: part) :: parts

end EventAdmission.Text
