import Parametric.Number.Reading
import Parametric.Text.Hexadecimal
/-! The smallest parts of a RON text: blanks, words, numbers and quoted text.

RON is the notation that documents and settings are stored in. A reader takes
what it looks for off the front of a text. What is looked for depends on the
form that is expected there, so the text has no tokens of its own: `Some5` is a
present 5 where an optional value is expected, and one word elsewhere.
-/

set_option autoImplicit false

namespace Parametric.Ron

/-- Takes a value off the front of a text and leaves the rest, or fails. -/
abbrev Reader := StateT (List Char) Option

inductive Passage where
  | outside
  | inLine
  | inBlock (depth : Nat)
  deriving DecidableEq, Repr

/-- The text after blanks and comments; none if a comment is malformed. -/
def afterBlanks? : Passage → List Char → Option (List Char)
  | .outside, '/' :: '/' :: rest => afterBlanks? .inLine rest
  | .outside, '/' :: '*' :: rest => afterBlanks? (.inBlock 0) rest
  | .outside, c :: rest =>
    if c ∈ [' ', '\t', '\n', '\r'] then afterBlanks? .outside rest
    else if c = '/' then none
    else some (c :: rest)
  | .inLine, c :: rest => afterBlanks? (if c = '\n' then .outside else .inLine) rest
  | .inBlock depth, '/' :: '*' :: rest => afterBlanks? (.inBlock (depth + 1)) rest
  | .inBlock 0, '*' :: '/' :: rest => afterBlanks? .outside rest
  | .inBlock (depth + 1), '*' :: '/' :: rest => afterBlanks? (.inBlock depth) rest
  | .inBlock depth, _ :: rest => afterBlanks? (.inBlock depth) rest
  | .inBlock _, [] => none
  | _, [] => some []

def startsWord (c : Char) : Bool :=
  c.isAlpha || c = '_'

def continuesWord (c : Char) : Bool :=
  c.isAlphanum || c = '_'

def continuesRawWord (c : Char) : Bool :=
  continuesWord c || c ∈ ['.', '+', '-']

/-- Characters of a decimal numeral. The underscore is one of them, and no numeral has it. -/
def continuesDecimal (c : Char) : Bool :=
  c.isDigit || c ∈ ['e', 'E', '.', '+', '-', '_']

def continuesInteger (c : Char) : Bool :=
  (Text.hexValue? c).isSome || c = '_'

def atWord (word : String) (cs : List Char) : Bool :=
  word.toList.isPrefixOf cs && !(cs.drop word.length).head?.any continuesWord

def ofCodePoint? (code : Nat) : Option Char :=
  if code.isValidChar then some (Char.ofNat code) else none

/-- The character that an escape stands for, and the length of the escape; the backslash
is not included. -/
def escape? : List Char → Option (Char × Nat)
  | '\'' :: _ => some ('\'', 1)
  | '"' :: _ => some ('"', 1)
  | '\\' :: _ => some ('\\', 1)
  | 'n' :: _ => some ('\n', 1)
  | 'r' :: _ => some ('\r', 1)
  | 't' :: _ => some ('\t', 1)
  | '0' :: _ => some (Char.ofNat 0, 1)
  | 'x' :: high :: low :: _ => do
    some (← ofCodePoint? (← Text.hexNumber? [high, low]), 3)
  | 'u' :: '{' :: rest =>
    let digits := (rest.take 6).takeWhile fun c => (Text.hexValue? c).isSome
    if digits.isEmpty || (rest.drop digits.length).head? ≠ some '}' then none
    else do some (← ofCodePoint? (← Text.hexNumber? digits), digits.length + 3)
  | _ => none

/-- Replace the escapes of a text; the first `skipped` characters belong to one that is
already replaced. -/
def unescape? (skipped : Nat) : List Char → Option (List Char)
  | [] => some []
  | c :: rest =>
    if 0 < skipped then unescape? (skipped - 1) rest
    else if c = '\\' then do
      let (decoded, length) ← escape? rest
      some (decoded :: (← unescape? length rest))
    else (unescape? 0 rest).map (c :: ·)

def untilQuote? : List Char → Option (List Char)
  | [] => none
  | '"' :: _ => some []
  | '\\' :: c :: rest => (untilQuote? rest).map ('\\' :: c :: ·)
  | c :: rest => (untilQuote? rest).map (c :: ·)

def untilRawQuote? (hashes : Nat) : List Char → Option (List Char)
  | [] => none
  | c :: rest =>
    if c = '"' && (List.replicate hashes '#').isPrefixOf rest then some []
    else (untilRawQuote? hashes rest).map (c :: ·)

namespace Reader

def blanks : Reader Unit := fun cs =>
  (afterBlanks? .outside cs).map ((), ·)

def took (text : String) : Reader Bool := fun cs =>
  if text.toList.isPrefixOf cs then some (true, cs.drop text.length) else some (false, cs)

def tookWord (words : List String) : Reader Bool := fun cs =>
  match words.find? (atWord · cs) with
  | some word => some (true, cs.drop word.length)
  | none => some (false, cs)

def take (c : Char) : Reader Unit := fun cs =>
  match cs with
  | d :: rest => if c = d then some ((), rest) else none
  | [] => none

def tookComma : Reader Bool := do
  blanks
  let found ← took ","
  blanks
  return found

/-- A name. A plain one must not run into a point or a sign. -/
def name : Reader String := fun cs =>
  let whole := cs.takeWhile continuesRawWord
  match cs with
  | 'r' :: '"' :: _ => none
  | 'r' :: '#' :: rest =>
    let raw := rest.takeWhile continuesRawWord
    if raw.isEmpty then none else some (String.ofList raw, rest.drop raw.length)
  | c :: _ =>
    if startsWord c && whole.all continuesWord then
      some (String.ofList whole, cs.drop whole.length)
    else none
  | [] => none

def float : Reader Float := fun cs =>
  match ["inf", "+inf", "-inf", "NaN", "+NaN", "-NaN"].find? (atWord · cs) with
  | some word => (readNumber word).map (·, cs.drop word.length)
  | none =>
    let numeral := cs.takeWhile continuesDecimal
    if '_' ∈ numeral then none
    else (readNumber (String.ofList numeral)).map (·, cs.drop numeral.length)

/-- An integer below a limit, in base 16, 2 or 8 after `0x`, `0b` or `0o`. Digits may be
separated by underscores. -/
def naturalBelow (limit : Nat) : Reader Nat := fun cs =>
  let (radix, rest) := match cs with
    | '0' :: 'x' :: rest => (16, rest)
    | '0' :: 'b' :: rest => (2, rest)
    | '0' :: 'o' :: rest => (8, rest)
    | _ => (10, cs)
  let digits := rest.takeWhile continuesInteger
  if digits.isEmpty || digits.head? = some '_' then none
  else do
    let value ← (digits.filter (· ≠ '_')).foldlM (fun value c =>
      ((Text.hexValue? c).filter (· < radix)).map (radix * value + ·)) 0
    if value < limit then some (value, rest.drop digits.length) else none

def natural (width : Nat) : Reader Nat :=
  naturalBelow (Nat.pow 2 width)

/-- Pass over a number of any kind: an integer of 64 bits with or without sign, or else
a decimal number. -/
def anyNumber : Reader Unit := fun cs =>
  let (digits, limit) := match cs with
    | '-' :: rest => (rest, Nat.pow 2 63 + 1)
    | '+' :: rest => (rest, Nat.pow 2 63)
    | _ => (cs, Nat.pow 2 64)
  let integer :=
    if (digits.takeWhile continuesInteger).length < (digits.takeWhile continuesDecimal).length
    then none
    else naturalBelow limit digits
  match integer with
  | some (_, rest) => some ((), rest)
  | none => (float cs).map fun (_, rest) => ((), rest)

/-- A text between quotation marks; after an `r` and equally many hash signs on both sides
it has no escapes. -/
def string : Reader String := fun cs =>
  match cs with
  | '"' :: rest => do
    let body ← untilQuote? rest
    some (String.ofList (← unescape? 0 body), rest.drop (body.length + 1))
  | 'r' :: rest =>
    let hashes := (rest.takeWhile (· = '#')).length
    match rest.drop hashes with
    | '"' :: tail => do
      let body ← untilRawQuote? hashes tail
      some (String.ofList body, tail.drop (body.length + 1 + hashes))
    | _ => none
  | _ => none

def character : Reader Char := fun cs =>
  match cs with
  | '\'' :: '\\' :: rest => do
    let (decoded, length) ← escape? rest
    match rest.drop length with
    | '\'' :: tail => some (decoded, tail)
    | _ => none
  | '\'' :: c :: '\'' :: tail => if c = '\'' then none else some (c, tail)
  | _ => none

end Reader

end Parametric.Ron
