import Combat.Value.Json
import Combat.Value.Toml.Datetime

/-!
The parts of TOML texts that hold no other parts: blanks and comments, texts, keys and numbers.
-/

namespace Combat.Value.Toml

/-! ### Blanks -/

def isBlank (c : Char) : Bool := c = ' ' || c = '\t'

def skipBlanks (cs : List Char) : List Char := cs.dropWhile isBlank

/-- May stand in a comment or between literal quotes: no control character but the tab. -/
def isPlain (c : Char) : Bool := c = '\t' || (0x20 ≤ c.toNat && c.toNat ≠ 0x7F)

def skipComment : List Char → List Char
  | '#' :: rest => rest.dropWhile isPlain
  | cs => cs

def newline? : List Char → Option (List Char)
  | '\n' :: rest => some rest
  | '\r' :: '\n' :: rest => some rest
  | _ => none

/-- What may follow on a line: blanks, a comment and its end, or the end of the text. -/
def lineEnd? (cs : List Char) : Option (List Char) :=
  match skipComment (skipBlanks cs) with
  | [] => some []
  | cs => newline? cs

/-- Blanks, comments and line ends. The fuel is the length of the text. -/
def skipLines : Nat → List Char → List Char
  | 0, cs => cs
  | fuel + 1, cs =>
    match skipComment (skipBlanks cs) with
    | [] => []
    | cs =>
      match newline? cs with
      | some rest => skipLines fuel rest
      | none => cs

/-! ### Texts -/

def hex? : Nat → Nat → List Char → Option (Nat × List Char)
  | 0, n, cs => some (n, cs)
  | digits + 1, n, c :: rest => do hex? digits (n * 16 + (← Json.hexDigit? c)) rest
  | _ + 1, _, [] => none

/-- A code point that is a character. -/
def character? (n : Nat) : Option Char := if n.isValidChar then some (Char.ofNat n) else none

def escape? : List Char → Option (Char × List Char)
  | '"' :: cs => some ('"', cs)
  | '\\' :: cs => some ('\\', cs)
  | 'b' :: cs => some ('\x08', cs)
  | 'f' :: cs => some ('\x0c', cs)
  | 'n' :: cs => some ('\n', cs)
  | 'r' :: cs => some ('\r', cs)
  | 't' :: cs => some ('\t', cs)
  | 'u' :: cs => do
    let (n, cs) ← hex? 4 0 cs
    return (← character? n, cs)
  | 'U' :: cs => do
    let (n, cs) ← hex? 8 0 cs
    return (← character? n, cs)
  | _ => none

/-- What follows the opening quote of a text on one line. -/
def basicText? : Nat → List Char → List Char → Option (String × List Char)
  | 0, _, _ => none
  | _ + 1, _, [] => none
  | _ + 1, done, '"' :: rest => some (String.ofList done.reverse, rest)
  | fuel + 1, done, '\\' :: rest => do
    let (c, rest) ← escape? rest
    basicText? fuel (c :: done) rest
  | fuel + 1, done, c :: rest => if isPlain c then basicText? fuel (c :: done) rest else none

def literalText? (cs : List Char) : Option (String × List Char) :=
  let isBody (c : Char) := isPlain c && c ≠ '\''
  match cs.dropWhile isBody with
  | '\'' :: rest => some (String.ofList (cs.takeWhile isBody), rest)
  | _ => none

/-- Blanks and line ends, after at least one line end. -/
def foldedLines? (cs : List Char) : Option (List Char) := do
  let rest ← newline? (skipBlanks cs)
  return skip (rest.length + 1) rest
where
  skip : Nat → List Char → List Char
    | 0, cs => cs
    | fuel + 1, cs =>
      let cs := skipBlanks cs
      match newline? cs with
      | some rest => skip fuel rest
      | none => cs

/-- A run of quotes: three end the text, and up to two before them belong to it. -/
def quoteRun (quote : Char) (cs : List Char) : Nat × List Char :=
  let n := min 5 (cs.takeWhile (· = quote)).length
  (n, cs.drop n)

/-- What follows the opening of a text on several lines; only some have escapes. -/
def longText? (quote : Char) (escapes : Bool) : Nat → List Char → List Char →
    Option (String × List Char)
  | 0, _, _ => none
  | _ + 1, _, [] => none
  | fuel + 1, done, c :: rest =>
    if c = quote then
      let (n, rest) := quoteRun quote (c :: rest)
      if 3 ≤ n then some (String.ofList (List.replicate (n - 3) quote ++ done).reverse, rest)
      else longText? quote escapes fuel (List.replicate n quote ++ done) rest
    else if escapes && c = '\\' then
      match foldedLines? rest with
      | some rest => longText? quote escapes fuel done rest
      | none => do
        let (c, rest) ← escape? rest
        longText? quote escapes fuel (c :: done) rest
    else if isPlain c then longText? quote escapes fuel (c :: done) rest
    else
      match newline? (c :: rest) with
      | some rest => longText? quote escapes fuel ('\n' :: done) rest
      | none => none

/-- A line end right after the opening does not count. -/
def longBody (cs : List Char) : List Char := (newline? cs).getD cs

def text? (cs : List Char) : Option (String × List Char) :=
  match cs with
  | '"' :: '"' :: '"' :: rest => longText? '"' true (cs.length + 1) [] (longBody rest)
  | '"' :: rest => basicText? (cs.length + 1) [] rest
  | '\'' :: '\'' :: '\'' :: rest => longText? '\'' false (cs.length + 1) [] (longBody rest)
  | '\'' :: rest => literalText? rest
  | _ => none

/-! ### Keys -/

def isBareKey (c : Char) : Bool := c.isAlphanum || c = '_' || c = '-'

def key? (cs : List Char) : Option (String × List Char) :=
  match cs with
  | '"' :: rest => basicText? (cs.length + 1) [] rest
  | '\'' :: rest => literalText? rest
  | _ =>
    match cs.takeWhile isBareKey with
    | [] => none
    | key => some (String.ofList key, cs.dropWhile isBareKey)

/-- How many keys a path may have, and how many brackets may be open at once within a value. -/
def deepest : Nat := 79

/-- So many keys at most, with points between them. -/
def keys? : Nat → List Char → Option (List String × List Char)
  | 0, _ => none
  | room + 1, cs => do
    let (key, rest) ← key? (skipBlanks cs)
    match skipBlanks rest with
    | '.' :: rest => do
      let (keys, rest) ← keys? room rest
      return (key :: keys, rest)
    | rest => return ([key], rest)

def path? (cs : List Char) : Option (List String × List Char) := keys? deepest cs

/-! ### Numbers -/

/-- Digits with single underscores between them. -/
def digits? (isDigit : Char → Bool) : List Char → Option (List Char)
  | [] => none
  | [c] => if isDigit c then some [c] else none
  | c :: '_' :: rest => if isDigit c then (c :: ·) <$> digits? isDigit rest else none
  | c :: rest => if isDigit c then (c :: ·) <$> digits? isDigit rest else none

/-- Decimal digits that do not begin with a zero unless it is the only one. -/
def wholeDigits? (cs : List Char) : Option (List Char) := do
  let ds ← digits? Char.isDigit cs
  match cs with
  | '0' :: _ :: _ => none
  | _ => return ds

def valueOf (base : Nat) (ds : List Char) : Nat :=
  ds.foldl (fun n c => n * base + (Json.hexDigit? c).getD 0) 0

/-- An integer of 64 bits. -/
def integer? (negative : Bool) (n : Nat) : Option Value :=
  let n : Int := if negative then -n else n
  if Checked.least ≤ n ∧ n ≤ Checked.greatest then some (.int n) else none

def infinity : Float := 1.0 / 0.0

/-- The float nearest to `digits · 10 ^ scale`. -/
def nearest (digits : Nat) (scale : Int) : Float :=
  let magnitude := scale + (Nat.toDigits 10 digits).length
  if digits = 0 then 0.0
  else if 400 < magnitude then infinity
  else if magnitude < -400 then 0.0
  else if 0 ≤ scale then Float.ofScientific digits false scale.toNat
  else Float.ofScientific digits true (-scale).toNat

/-- A fraction, an exponent or both make a float. A float beyond the greatest is refused. -/
def float? (negative : Bool) (cs : List Char) : Option Value := do
  let isExponent (c : Char) := c = 'e' || c = 'E'
  let mantissa := cs.takeWhile (!isExponent ·)
  let count (cs : List Char) : Option Int :=
    (digits? Char.isDigit cs).map fun ds => (valueOf 10 ds : Int)
  let exponent ←
    match cs.dropWhile (!isExponent ·) with
    | [] => some (0 : Int)
    | _ :: '-' :: rest => (count rest).map (-·)
    | _ :: '+' :: rest | _ :: rest => count rest
  let whole ← wholeDigits? (mantissa.takeWhile (· ≠ '.'))
  let fraction ←
    match mantissa.dropWhile (· ≠ '.') with
    | [] => if cs.any isExponent then some [] else none
    | _ :: rest => digits? Char.isDigit rest
  let ds := whole ++ fraction
  let x := nearest (valueOf 10 ds) (exponent - fraction.length)
  if negative then return .float (-x)
  else if x == infinity then none
  else return .float x

def unsigned? (signed negative : Bool) (cs : List Char) : Option Value :=
  match cs with
  | ['i', 'n', 'f'] => some (.float (if negative then -infinity else infinity))
  | ['n', 'a', 'n'] => some (.float (0.0 / 0.0))
  | '0' :: 'x' :: rest =>
    if signed then none
    else
      (digits? (fun c => (Json.hexDigit? c).isSome) rest).bind fun ds =>
        integer? false (valueOf 16 ds)
  | '0' :: 'o' :: rest =>
    if signed then none
    else (digits? (fun c => '0' ≤ c && c ≤ '7') rest).bind fun ds => integer? false (valueOf 8 ds)
  | '0' :: 'b' :: rest =>
    if signed then none
    else (digits? (fun c => c = '0' || c = '1') rest).bind fun ds => integer? false (valueOf 2 ds)
  | _ =>
    match wholeDigits? cs with
    | some ds => integer? negative (valueOf 10 ds)
    | none => float? negative cs

def number? : List Char → Option Value
  | '+' :: rest => unsigned? true false rest
  | '-' :: rest => unsigned? true true rest
  | cs => unsigned? false false cs

/-- The key under which a date or time stands when it is read as a table. -/
def datetimeKey : String := "$__toml_private_datetime"

def isNumberChar (c : Char) : Bool := c.isAlphanum || c = '_' || c = '+' || c = '-' || c = '.'

/-- A date, a time, a number or a truth value. -/
def word? (cs : List Char) : Option (Value × List Char) :=
  match datetime? cs with
  | some (written, rest) => some (.table [(datetimeKey, .text written)], rest)
  | none =>
    let rest := cs.dropWhile isNumberChar
    match cs.takeWhile isNumberChar with
    | ['t', 'r', 'u', 'e'] => some (.bool true, rest)
    | ['f', 'a', 'l', 's', 'e'] => some (.bool false, rest)
    | word => (number? word).map (·, rest)

end Combat.Value.Toml
