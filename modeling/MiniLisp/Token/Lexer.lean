import MiniLisp.Token.Basic
import MiniLisp.Text.Blank
import MiniLisp.Text.Digit

/-!
# Cutting a text into tokens

Between tokens stand blanks and comments, from a semicolon to the end of the line. The character that
starts a token decides its kind and how far it goes:

* parentheses and the quote mark stand alone;
* a quotation mark starts a string, which goes to the next quotation mark that no backslash escapes;
* `#d` before a quotation mark starts a date, which goes to the next quotation mark;
* a digit, or a minus before a digit, starts a number: digits with at most one point among them;
* anything else starts a symbol, which goes to the next blank, parenthesis or semicolon.

A string or date without an end goes to the end of the text, so every text has tokens. Nothing is lost:
what is skipped and the spans of the tokens make up the text (`skip_append`, `scan_append`).
-/

namespace MiniLisp.Token

/-! ### Between tokens -/

/-- Splits off the blanks and comments in front, starting inside a comment or not. -/
def skip : Bool → List Char → List Char × List Char
  | _, [] => ([], [])
  | comment, c :: cs =>
    if comment then
      let (skipped, rest) := skip (c != '\n') cs
      (c :: skipped, rest)
    else if Text.isBlank c then
      let (skipped, rest) := skip false cs
      (c :: skipped, rest)
    else if c = ';' then
      let (skipped, rest) := skip true cs
      (c :: skipped, rest)
    else ([], c :: cs)

theorem skip_append (comment : Bool) (cs : List Char) :
    (skip comment cs).1 ++ (skip comment cs).2 = cs := by
  fun_induction skip comment cs <;> simp_all

/-! ### Strings, numbers and symbols -/

/-- Splits a text after the quotation mark that ends a string; every backslash takes the character
after it along. -/
def stringBody : List Char → List Char × List Char
  | [] => ([], [])
  | '"' :: cs => (['"'], cs)
  | '\\' :: c :: cs =>
    let (body, rest) := stringBody cs
    ('\\' :: c :: body, rest)
  | c :: cs =>
    let (body, rest) := stringBody cs
    (c :: body, rest)

theorem stringBody_append (cs : List Char) : (stringBody cs).1 ++ (stringBody cs).2 = cs := by
  fun_induction stringBody cs <;> simp_all

/-- The character that an escape stands for. -/
def escaped (c : Char) : Char :=
  if c = 'n' then '\n' else if c = 't' then '\t' else if c = 'r' then '\r' else c

/-- The characters of a string up to its end. -/
def unescape : List Char → List Char
  | [] => []
  | '"' :: _ => []
  | '\\' :: c :: cs => escaped c :: unescape cs
  | c :: cs => c :: unescape cs

/-- Splits a text after the next quotation mark. -/
def dateBody : List Char → List Char × List Char
  | [] => ([], [])
  | c :: cs =>
    if c = '"' then ([c], cs)
    else
      let (body, rest) := dateBody cs
      (c :: body, rest)

theorem dateBody_append (cs : List Char) : (dateBody cs).1 ++ (dateBody cs).2 = cs := by
  fun_induction dateBody cs <;> simp_all

/-- Splits off the digits in front, and one point among them unless there was one before. -/
def numberBody : Bool → List Char → List Char × List Char
  | _, [] => ([], [])
  | point, c :: cs =>
    if Text.isDigit c then
      let (body, rest) := numberBody point cs
      (c :: body, rest)
    else if c = '.' ∧ point = false then
      let (body, rest) := numberBody true cs
      (c :: body, rest)
    else ([], c :: cs)

theorem numberBody_append (point : Bool) (cs : List Char) :
    (numberBody point cs).1 ++ (numberBody point cs).2 = cs := by
  fun_induction numberBody point cs <;> simp_all

/-- Whether a symbol goes on with this character. -/
def inSymbol (c : Char) : Bool := !(Text.isBlank c || c == '(' || c == ')' || c == ';')

/-! ### One token -/

/-- A token without its place: its kind, its value, the characters it covers and what follows. -/
structure Scanned where
  kind : Kind
  value : List Char
  span : List Char
  rest : List Char

/-- Whether a number starts with this character. -/
def startsNumber (c : Char) (cs : List Char) : Bool :=
  Text.isDigit c || (c == '-' && (cs.head?.map Text.isDigit).getD false)

/-- The contents of a date after its quotation mark. -/
def dateText? (c : Char) (cs : List Char) : Option (List Char) :=
  match c, cs with
  | '#', 'd' :: '"' :: cs => some cs
  | _, _ => none

/-- The token that starts with a character. -/
def scan (c : Char) (cs : List Char) : Scanned :=
  if c = '(' then ⟨.leftParen, [c], [c], cs⟩
  else if c = ')' then ⟨.rightParen, [c], [c], cs⟩
  else if c = '\x27' then ⟨.quote, [c], [c], cs⟩
  else if c = '"' then
    let s := stringBody cs
    ⟨.string, unescape s.1, c :: s.1, s.2⟩
  else match dateText? c cs with
    | some text =>
      let s := dateBody text
      ⟨.date, s.1.takeWhile (· != '"'), c :: 'd' :: '"' :: s.1, s.2⟩
    | none =>
      if startsNumber c cs then
        let s := numberBody false cs
        ⟨.number, c :: s.1, c :: s.1, s.2⟩
      else
        let body := cs.takeWhile inSymbol
        ⟨.symbol, c :: body, c :: body, cs.dropWhile inSymbol⟩

theorem eq_of_dateText? {c : Char} {cs text : List Char} (h : dateText? c cs = some text) :
    c :: cs = '#' :: 'd' :: '"' :: text := by
  unfold dateText? at h
  split at h <;> simp_all

theorem scan_append (c : Char) (cs : List Char) :
    (scan c cs).span ++ (scan c cs).rest = c :: cs := by
  unfold scan
  split; · simp
  split; · simp
  split; · simp
  split; · simp [stringBody_append]
  split
  · next h =>
    have h := eq_of_dateText? h
    simp_all [dateBody_append]
  · split <;> simp [numberBody_append]

theorem scan_span_ne_nil (c : Char) (cs : List Char) : (scan c cs).span ≠ [] := by
  unfold scan
  repeat' split
  all_goals simp

theorem length_scan_rest_lt (c : Char) (cs : List Char) :
    (scan c cs).rest.length < (c :: cs).length := by
  have h := congrArg List.length (scan_append c cs)
  have := List.length_pos_iff.2 (scan_span_ne_nil c cs)
  simp only [List.length_append] at h
  omega

/-! ### All tokens -/

/-- The tokens of the rest of a text that starts at a place; the last one is its end. -/
def scanFrom (place : Place) (cs : List Char) : List Token :=
  let start := place.advanceAll (skip false cs).1
  match _ends : (skip false cs).2 with
  | [] => [.atEnd start]
  | c :: rest =>
    let t := scan c rest
    ⟨t.kind, String.ofList t.value, start⟩ :: scanFrom (start.advanceAll t.span) t.rest
termination_by cs.length
decreasing_by
  have h1 := congrArg List.length (skip_append false cs)
  have h2 := length_scan_rest_lt c rest
  simp only [List.length_append, _ends] at h1
  omega

/-- The tokens of a text. -/
def ofText (source : String) : List Token := scanFrom .start source.toList

end MiniLisp.Token
