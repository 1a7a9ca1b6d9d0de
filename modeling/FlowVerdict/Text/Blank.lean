/-!
# Blank space

The white space of Unicode (property `White_Space`), and the cuts of a text that depend on it: its
words, its lines, and the text without blanks at its end.
-/

namespace FlowVerdict.Text

/-- The characters with the property `White_Space`. -/
def isBlank (c : Char) : Bool :=
  let n := c.toNat
  (0x9 ≤ n && n ≤ 0xD) || n == 0x20 || n == 0x85 || n == 0xA0 || n == 0x1680 ||
    (0x2000 ≤ n && n ≤ 0x200A) || n == 0x2028 || n == 0x2029 || n == 0x202F || n == 0x205F ||
    n == 0x3000

/-- The words of a text: its maximal runs without a blank. `word` holds the run under way, last
character first. -/
def wordsFrom (word : List Char) : List Char → List (List Char)
  | [] => if word.isEmpty then [] else [word.reverse]
  | c :: rest =>
    if isBlank c then
      if word.isEmpty then wordsFrom [] rest else word.reverse :: wordsFrom [] rest
    else wordsFrom (c :: word) rest

def words (text : String) : List String :=
  (wordsFrom [] text.toList).map String.ofList

def isBlankText (text : String) : Bool :=
  text.toList.all isBlank

/-- The text without the blanks at its end. -/
def trimEnd (text : String) : String :=
  String.ofList (text.toList.reverse.dropWhile isBlank).reverse

/-- A line, given last character first, without the carriage return at its end, if it has one. -/
def dropReturn : List Char → List Char
  | [] => []
  | c :: rest => if c = '\r' then rest.reverse else (c :: rest).reverse

/-- The lines of a text. A line ends at a line feed, and a carriage return right before that belongs
to the ending; characters after the last line feed are a line as they stand. `line` holds the line
under way, last character first. -/
def linesFrom (line : List Char) : List Char → List (List Char)
  | [] => if line.isEmpty then [] else [line.reverse]
  | c :: rest =>
    if c = '\n' then dropReturn line :: linesFrom [] rest else linesFrom (c :: line) rest

def lines (text : String) : List String :=
  (linesFrom [] text.toList).map String.ofList

end FlowVerdict.Text
