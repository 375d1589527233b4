/-!
Texts between the quotes of a document, as they are read.

A document is written in JSON and read by the rules of YAML.  The two agree on what is escaped, and
all control characters below the space are; they differ on what stands there as it is.

* `isReadable`: the characters that a document may hold;
* `isLineBreak`: the characters that end a line;
* `foldGap`: what is read from a run of spaces and line breaks;
* `folded?`: what is read from a text between quotes.
-/

namespace GraphMapper.Text

/-- Whether a character can be read: all but DEL, the control characters beyond it and the two
noncharacters at the end of the basic plane.  Of the control characters the next line is one. -/
def isReadable (c : Char) : Bool :=
  let n := c.toNat
  n < 0x7F || n == 0x85 || (0xA0 ≤ n && n ≤ 0xFFFD) || 0x10000 ≤ n

/-- The line breaks that need no escape: next line, line separator and paragraph separator. -/
def isLineBreak (c : Char) : Bool :=
  c.toNat == 0x85 || c.toNat == 0x2028 || c.toNat == 0x2029

/-- Spaces and line breaks: what is folded. -/
def isGap (c : Char) : Bool :=
  c == ' ' || isLineBreak c

/-- A line break as it is read: the next line becomes a line feed, the separators are kept. -/
def readBreak (c : Char) : Char :=
  if c.toNat = 0x85 then '\n' else c

/-- What is read from a run of spaces and line breaks.  Without a line break it is kept.  Otherwise
the spaces go; a first break that reads as a line feed becomes a space if it is alone and goes if more
follow. -/
def foldGap (gap : List Char) : List Char :=
  match (gap.filter isLineBreak).map readBreak with
  | [] => gap
  | ['\n'] => [' ']
  | '\n' :: more => more
  | breaks => breaks

/-- Whether a line that starts like this marks the start or the end of a document: three hyphens or
three dots, with a space or a line break behind them. -/
def isDocumentMark : List Char → Bool
  | '-' :: '-' :: '-' :: c :: _ => isGap c
  | '.' :: '.' :: '.' :: c :: _ => isGap c
  | _ => false

/-- What is read from a text after a run of spaces and line breaks, which is given last first. -/
def foldedAfter? : (gap : List Char) → List Char → Option (List Char)
  | gap, [] => some (foldGap gap.reverse)
  | gap, c :: rest =>
    if isGap c then foldedAfter? (c :: gap) rest
    else if !isReadable c || (gap.head?.any isLineBreak && isDocumentMark (c :: rest)) then none
    else (foldedAfter? [] rest).map fun read => foldGap gap.reverse ++ c :: read

/-- What is read from a text between quotes.  Line breaks are folded; a character that cannot be
read, or a line that marks the bounds of a document, spoils it. -/
def folded? (text : List Char) : Option (List Char) :=
  foldedAfter? [] text

end GraphMapper.Text
