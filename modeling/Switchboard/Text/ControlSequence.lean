/-!
# Control sequences

Text that a terminal shows may hold control sequences: an escape character and what belongs to it,
up to a final character or, for strings, up to their terminator. `strip` leaves out control
sequences and all control characters but those that lay out text.

* `strip_eq_self` says that text without control characters is left as it is.
-/

namespace Switchboard.ControlSequence

/-- How much of the head of a control sequence has been read. -/
inductive Head
  | start
  | parameters
  | intermediates
  | malformed
deriving DecidableEq, Repr

/-- What the next character belongs to. -/
inductive Phase
  | text
  | escape
  /-- An escape sequence that goes on up to a final character. -/
  | escapeIntermediates
  | control (head : Head)
  | device (head : Head)
  /-- A string for the operating system, which the bell ends. -/
  | command
  /-- Any other string, which its terminator ends. -/
  | message
deriving DecidableEq, Repr

/-- Whether a character lies between two code points, both included. -/
def within (lo hi : Nat) (c : Char) : Bool := lo ≤ c.toNat && c.toNat ≤ hi

/-- Whether a control character lays out text. -/
def isLayout (c : Char) : Bool := c = '\t' || c = '\n' || c = '\x0c' || c = '\r'

/-- Whether plain text shows a character. -/
def isText (c : Char) : Bool := (0x20 ≤ c.toNat && c ≠ '\x7f') || isLayout c

/-- Whether a character ends the head of a sequence. -/
def isFinal (c : Char) : Bool := within 0x40 0x7E c

/-- Whether one of the bytes of a character is the terminator of strings. -/
def isTerminator (c : Char) : Bool := (String.utf8EncodeChar c).contains 0x9C

/-- The head of a sequence with one more character, which does not end it. -/
def Head.next (h : Head) (c : Char) : Head :=
  if within 0x20 0x2F c then
    if h = malformed then malformed else intermediates
  else if within 0x30 0x3B c then
    if h = start ∨ h = parameters then parameters else malformed
  else if within 0x3C 0x3F c then
    if h = start then parameters else malformed
  else h

/-- What follows a character behind the escape character. -/
def afterEscape (c : Char) : Phase :=
  match c with
  | '[' => .control .start
  | ']' => .command
  | 'P' => .device .start
  | 'X' => .message
  | '^' => .message
  | '_' => .message
  | c =>
    if within 0x20 0x2F c then .escapeIntermediates
    else if within 0x30 0x7E c then .text
    else .escape

/-- What follows a character. A sequence is given up for another one, and cancelled by the
characters CAN and SUB. -/
def Phase.next (p : Phase) (c : Char) : Phase :=
  if c = '\x1b' then escape
  else if c = '\x18' ∨ c = '\x1a' then text
  else
    match p with
    | text => text
    | escape => afterEscape c
    | escapeIntermediates => if within 0x30 0x7E c then text else escapeIntermediates
    | control h => if isFinal c then text else control (h.next c)
    | device h => if isFinal c ∨ h.next c = .malformed then message else device (h.next c)
    | command => if c = '\x07' then text else command
    | message => if isTerminator c then text else message

/-- Whether a character is shown. What lays out text is shown inside a sequence too, but not inside
a string. -/
def Phase.shows (p : Phase) (c : Char) : Bool :=
  match p with
  | text => isText c
  | escape => isLayout c
  | escapeIntermediates => isLayout c
  | control _ => isLayout c
  | device _ => false
  | command => false
  | message => false

/-- The characters of a text that are shown. Behind a character that is shown, `shown` holds and
characters count as plain text up to the next one that is not shown; there a sequence that was
interrupted goes on, unless a character beyond ASCII has ended it. -/
def stripFrom (p : Phase) (shown : Bool) : List Char → List Char
  | [] => []
  | c :: rest =>
    if (if shown then isText c else p.shows c) then
      c :: stripFrom (if c.toNat < 0x80 then p else .text) true rest
    else stripFrom (p.next c) false rest

/-- A text without its control sequences. -/
def strip (text : String) : String := String.ofList (stripFrom .text false text.toList)

theorem stripFrom_eq_self {text : List Char} (h : ∀ c ∈ text, isText c) (shown : Bool) :
    stripFrom .text shown text = text := by
  induction text generalizing shown with
  | nil => rfl
  | cons c rest ih =>
    have hc : isText c := h c (by simp)
    have hrest := ih (fun c hc => h c (by simp [hc])) true
    simp [stripFrom, Phase.shows, hc, hrest]

/-- Text without control characters is left as it is. -/
theorem strip_eq_self {text : String} (h : ∀ c ∈ text.toList, isText c) : strip text = text := by
  rw [strip, stripFrom_eq_self h, String.ofList_toList]

end Switchboard.ControlSequence
