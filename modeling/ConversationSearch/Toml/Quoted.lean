import ConversationSearch.Text.Digits

/-!
# Quoted texts of TOML

A text stands between quotes or apostrophes. Between quotes a backslash escapes; between
apostrophes every character stands for itself. Three of either in a row open a text over several
lines, of which a line break right behind them is no part. In such a text between quotes, a
backslash at the end of a line takes the blanks and line breaks behind it away.
-/

namespace ConversationSearch.Toml

/-- Whether a character may stand in a text: no control characters other than the tab. -/
def isTextChar (c : Char) : Bool :=
  c == '\t' || (0x20 ≤ c.toNat && c.toNat != 0x7F)

/-- A line break at the front. -/
def takeNewline : List Char → Option (List Char)
  | '\n' :: rest => some rest
  | '\r' :: '\n' :: rest => some rest
  | _ => none

/-- A line break at the front, if there is one. -/
def skipNewline (cs : List Char) : List Char :=
  (takeNewline cs).getD cs

/-- The character with the code that the given number of hexadecimal digits makes up. -/
def takeCode (width : Nat) (cs : List Char) : Option (Char × List Char) :=
  if cs.length < width then none
  else
    (Text.hexNumber? (cs.take width)).bind fun n =>
      if h : n.isValidChar then some (Char.ofNatAux n h, cs.drop width) else none

/-- The character that an escape stands for, its backslash being taken already. -/
def takeEscape : List Char → Option (Char × List Char)
  | 'b' :: rest => some ('\x08', rest)
  | 't' :: rest => some ('\t', rest)
  | 'n' :: rest => some ('\n', rest)
  | 'f' :: rest => some ('\x0c', rest)
  | 'r' :: rest => some ('\r', rest)
  | '"' :: rest => some ('"', rest)
  | '\\' :: rest => some ('\\', rest)
  | 'u' :: rest => takeCode 4 rest
  | 'U' :: rest => takeCode 8 rest
  | _ => none

/-- The rest of a text on one line. Each step takes at least one character, so the supply never runs
out before the text does. -/
def line (escapes : Bool) (quote : Char) : (supply : Nat) → List Char →
    Option (List Char × List Char)
  | 0, _ => none
  | _, [] => none
  | supply + 1, c :: rest =>
    if c = quote then some ([], rest)
    else if escapes && c == '\\' then do
      let (c, rest) ← takeEscape rest
      let (text, rest) ← line escapes quote supply rest
      return (c :: text, rest)
    else if isTextChar c then do
      let (text, rest) ← line escapes quote supply rest
      return (c :: text, rest)
    else none

/-- Drops blanks and line breaks. -/
def skipLines : (supply : Nat) → List Char → List Char
  | 0, cs => cs
  | supply + 1, cs =>
    match cs with
    | ' ' :: rest | '\t' :: rest => skipLines supply rest
    | cs =>
      match takeNewline cs with
      | some rest => skipLines supply rest
      | none => cs

/-- What follows a backslash at the end of a line, if it stands there. -/
def joinLines (cs : List Char) : Option (List Char) :=
  (takeNewline (cs.dropWhile fun c => c == ' ' || c == '\t')).map fun rest =>
    skipLines rest.length rest

/-- The rest of a text over several lines. Up to two quotes may stand right before the closing
three. -/
def lines (escapes : Bool) (quote : Char) : (supply : Nat) → List Char →
    Option (List Char × List Char)
  | 0, _ => none
  | supply + 1, cs =>
    let quotes := (cs.takeWhile (· == quote)).length
    if 3 ≤ quotes then
      if quotes ≤ 5 then some (List.replicate (quotes - 3) quote, cs.drop quotes) else none
    else
      match cs with
      | [] => none
      | c :: rest =>
        if escapes && c == '\\' then
          match joinLines rest with
          | some rest => lines escapes quote supply rest
          | none => do
            let (c, rest) ← takeEscape rest
            let (text, rest) ← lines escapes quote supply rest
            return (c :: text, rest)
        else
          match takeNewline cs with
          | some rest => do
            let (text, rest) ← lines escapes quote supply rest
            return ('\n' :: text, rest)
          | none =>
            if isTextChar c then do
              let (text, rest) ← lines escapes quote supply rest
              return (c :: text, rest)
            else none

/-- A quoted text at the front; `multi` allows one over several lines. -/
def takeQuoted (multi : Bool) : List Char → Option (String × List Char)
  | [] => none
  | q :: rest =>
    if q = '"' ∨ q = '\'' then
      let escapes := q == '"'
      let opened := match rest with
        | a :: b :: body =>
          if multi && a == q && b == q then some (skipNewline body) else none
        | _ => none
      let result := match opened with
        | some body => lines escapes q (body.length + 1) body
        | none => line escapes q (rest.length + 1) rest
      result.map fun r => (String.ofList r.1, r.2)
    else none

end ConversationSearch.Toml
