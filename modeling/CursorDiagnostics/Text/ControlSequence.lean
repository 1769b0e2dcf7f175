/-
  CursorDiagnostics.Text.ControlSequence — what is left of a text when the sequences that steer a
  terminal are taken out of it.

  A sequence begins with ESC. The character after it says which kind it is:
  - `[`: a control sequence, up to its final character, one of `@` to `~`;
  - `]`: a command string, up to BEL;
  - `P`: a device string, which has a header and a body; `X`, `^` and `_`: a string that is all body.
    The header has parameters (digits, `:` and `;`, the first also one of `<` to `?`), then
    intermediate characters, and any other character up to `~` begins the body. A body ends at a
    character whose encoding holds the byte 0x9C, the string terminator of one byte;
  - a blank or one of `!` to `/`: more of these, then a final character, one of `0` to `~`;
  - any other from `0` to `~` is the whole sequence.
  In every place CAN and SUB give the sequence up, and ESC begins a new one: so `ESC \` ends a string.

  Of the control characters only the tab, the line feed, the form feed and the carriage return are
  text. One of these four in a sequence that is not a string interrupts it: it is shown, and so is
  what follows, up to a control character, which takes the sequence up again, or a character outside
  ASCII, which ends it.
-/

namespace CursorDiagnostics.Text.ControlSequence

/-- The parts of a sequence, by what may come next. -/
inductive Stage where
  /-- After ESC. -/
  | escape
  /-- After ESC and an intermediate character. -/
  | intermediate
  | control
  | deviceStart
  | deviceParameters
  | deviceIntermediate
  | body
  | command
  deriving DecidableEq, Repr

/-- Where a reader stands between two characters. -/
inductive Place where
  | text
  | inside (s : Stage)
  | interrupted (s : Stage)
  deriving DecidableEq, Repr

/-- The control characters that are text. -/
def isLayout (c : Char) : Bool := c == '\t' || c == '\n' || c == '\x0c' || c == '\r'

def isText (c : Char) : Bool := isLayout c || (' ' ≤ c && c != '\x7f')

def isIntermediate (c : Char) : Bool := ' ' ≤ c && c ≤ '/'

/-- A character from `lo` to `~`. -/
def isFinal (lo c : Char) : Bool := lo ≤ c && c ≤ '~'

/-- Whether the string terminator is among the bytes of the character. -/
def holdsTerminator (c : Char) : Bool := (String.utf8EncodeChar c).contains 0x9c

/-- A layout character shows itself in these stages. -/
def Stage.isInterruptible : Stage → Bool
  | .escape | .intermediate | .control => true
  | .deviceStart | .deviceParameters | .deviceIntermediate | .body | .command => false

/-- The place after a character that belongs to a sequence. -/
def Stage.next : Stage → Char → Place
  | .escape, c =>
    if isIntermediate c then .inside .intermediate
    else if c = '[' then .inside .control
    else if c = ']' then .inside .command
    else if c = 'P' then .inside .deviceStart
    else if c = 'X' || c = '^' || c = '_' then .inside .body
    else if isFinal '0' c then .text
    else .inside .escape
  | .intermediate, c => if isFinal '0' c then .text else .inside .intermediate
  | .control, c => if isFinal '@' c then .text else .inside .control
  | .deviceStart, c =>
    if isIntermediate c then .inside .deviceIntermediate
    else if isFinal '@' c then .inside .body
    else if isFinal '0' c then .inside .deviceParameters
    else .inside .deviceStart
  | .deviceParameters, c =>
    if isIntermediate c then .inside .deviceIntermediate
    else if c.isDigit || c = ':' || c = ';' then .inside .deviceParameters
    else if isFinal '0' c then .inside .body
    else .inside .deviceParameters
  | .deviceIntermediate, c => if isFinal '0' c then .inside .body else .inside .deviceIntermediate
  | .body, c => if holdsTerminator c then .text else .inside .body
  | .command, c => if c = '\x07' then .text else .inside .command

/-- The place after a character that is not shown. -/
def Place.pass (p : Place) (c : Char) : Place :=
  if c = '\x1b' then .inside .escape
  else if c = '\x18' || c = '\x1a' then .text
  else match p with
    | .text => .text
    | .inside s | .interrupted s => s.next c

def Place.shows : Place → Char → Bool
  | .text, c | .interrupted _, c => isText c
  | .inside s, c => s.isInterruptible && isLayout c

/-- The place after a character that is shown. -/
def Place.show : Place → Char → Place
  | .text, _ => .text
  | .inside s, _ => .interrupted s
  | .interrupted s, c => if c ≤ '\x7f' then .interrupted s else .text

def Place.after (p : Place) (c : Char) : Place := if p.shows c then p.show c else p.pass c

/-- The characters shown so far, last first, and the place after them. -/
structure Reading where
  shown : List Char
  place : Place
  deriving DecidableEq, Repr

def feed (r : Reading) (c : Char) : Reading :=
  ⟨if r.place.shows c then c :: r.shown else r.shown, r.place.after c⟩

/-- The characters of a text that are shown. -/
def plainChars (cs : List Char) : List Char := (cs.foldl feed ⟨[], .text⟩).shown.reverse

def plain (s : String) : String := String.ofList (plainChars s.toList)

end CursorDiagnostics.Text.ControlSequence
