/-!
# Options and words

The arguments of a command are options and words. An option has a name behind two dashes, and it
may have a letter behind one. The value of an option stands behind an equals sign, behind the
letter, or in the next argument. Letters without values can be put together. Behind two dashes
alone everything is a word. No option is given twice.

Some commands lead to others: the first word is then the name of one, and what follows it belongs
to that one.
-/

namespace ConversationSearch.CommandLine

/-- An option. -/
structure Choice where
  name : String
  letter : Option Char := none
  takesValue : Bool := true
  deriving DecidableEq, Repr

/-- What a command accepts. -/
structure Grammar where
  choices : List Choice := []
  /-- How many words may be given. -/
  maxWords : Nat := 0
  /-- The commands that it leads to. -/
  commands : List String := []
  deriving DecidableEq, Repr

/-- Why arguments cannot be understood. -/
inductive UsageFault
  | unknownOption (text : String)
  | missingValue (name : String)
  | unexpectedValue (name : String)
  | repeatedOption (name : String)
  | unacceptableValue (name value : String)
  | unexpectedWord (word : String)
  | missingWord (name : String)
  | missingCommand
  /-- The user asks how the command is used. -/
  | helpWanted
  deriving DecidableEq, Repr

/-- The wording of a fault. -/
def UsageFault.message : UsageFault → String
  | .unknownOption text => "unexpected argument '" ++ text ++ "'"
  | .missingValue name => "a value is required for '--" ++ name ++ "'"
  | .unexpectedValue name => "unexpected value for '--" ++ name ++ "'"
  | .repeatedOption name => "the argument '--" ++ name ++ "' cannot be used multiple times"
  | .unacceptableValue name value => "invalid value '" ++ value ++ "' for '" ++ name ++ "'"
  | .unexpectedWord word => "unexpected argument '" ++ word ++ "'"
  | .missingWord name => "the following required argument was not provided: " ++ name
  | .missingCommand => "a subcommand is required"
  | .helpWanted => "help"

/-- How an argument looks. -/
inductive Argument
  | word (text : String)
  /-- Two dashes alone. -/
  | escape
  | named (name : String) (value : Option String)
  | letters (cs : List Char)
  deriving DecidableEq, Repr

namespace Argument

/-- The name and the value on the two sides of the first equals sign. -/
def ofNamed (cs : List Char) : Argument :=
  let name := String.ofList (cs.takeWhile (· != '='))
  match cs.dropWhile (· != '=') with
  | [] => .named name none
  | _ :: value => .named name (some (String.ofList value))

/-- Looks at an argument. A dash alone is a word. -/
def of (s : String) : Argument :=
  match s.toList with
  | ['-', '-'] => .escape
  | '-' :: '-' :: cs => ofNamed cs
  | '-' :: c :: cs => .letters (c :: cs)
  | _ => .word s

end Argument

/-- What was given to a command. -/
structure Given where
  /-- The options by name; those that take no value have an empty one. -/
  options : List (String × String) := []
  words : List String := []
  deriving DecidableEq, Repr

namespace Given

/-- The value of an option. -/
def value? (g : Given) (name : String) : Option String :=
  g.options.lookup name

/-- Whether an option was given. -/
def has (g : Given) (name : String) : Bool :=
  (g.value? name).isSome

/-- The value of an option as it is meant. -/
def read? (g : Given) (name : String) (f : String → Option α) : Except UsageFault (Option α) :=
  match g.value? name with
  | none => .ok none
  | some text =>
    match f text with
    | some a => .ok (some a)
    | none => .error (.unacceptableValue ("--" ++ name) text)

/-- Adds an option. -/
def addOption (g : Given) (name value : String) : Except UsageFault Given :=
  if g.has name then .error (.repeatedOption name)
  else .ok { g with options := g.options ++ [(name, value)] }

/-- Adds words. -/
def addWords (g : Given) (maxWords : Nat) (words : List String) : Except UsageFault Given :=
  match (g.words ++ words).drop maxWords with
  | [] => .ok { g with words := g.words ++ words }
  | word :: _ => .error (.unexpectedWord word)

end Given

namespace Grammar

/-- The name of the option that asks how the command is used. -/
def helpName : String :=
  "help"

/-- The letter of the option that asks how the command is used. -/
def helpLetter : Char :=
  'h'

/-- Reads an option by its name, with the value that is attached to it. An option whose value is
still to come is given back. -/
def readNamed (g : Grammar) (name : String) (value : Option String) (given : Given) :
    Except UsageFault (Given × Option Choice) :=
  if name = helpName then .error .helpWanted
  else
    match g.choices.find? (·.name == name), value with
    | none, _ => .error (.unknownOption ("--" ++ name))
    | some choice, none =>
      if choice.takesValue then .ok (given, some choice)
      else (given.addOption name "").map (·, none)
    | some choice, some value =>
      if choice.takesValue then (given.addOption name value).map (·, none)
      else .error (.unexpectedValue name)

/-- Reads options by their letters. An option whose value is still to come is given back. -/
def readLetters (g : Grammar) : List Char → Given → Except UsageFault (Given × Option Choice)
  | [], given => .ok (given, none)
  | c :: rest, given =>
    match g.choices.find? (·.letter == some c) with
    | none =>
      if c = helpLetter then .error .helpWanted
      else .error (.unknownOption (String.ofList ['-', c]))
    | some choice =>
      if choice.takesValue then
        match rest with
        | [] => .ok (given, some choice)
        | '=' :: value => (given.addOption choice.name (String.ofList value)).map (·, none)
        | value => (given.addOption choice.name (String.ofList value)).map (·, none)
      else do
        let given ← given.addOption choice.name ""
        readLetters g rest given

/-- The command that follows, and its arguments. -/
abbrev Following := Option (String × List String)

/-- Reads arguments, with the option whose value is still to come. -/
def readFrom (g : Grammar) :
    Option Choice → List String → Given → Except UsageFault (Given × Following)
  | none, [], given => .ok (given, none)
  | some choice, [], _ => .error (.missingValue choice.name)
  | some choice, s :: rest, given =>
    match Argument.of s with
    | .word text => do
      let given ← given.addOption choice.name text
      readFrom g none rest given
    | _ => .error (.missingValue choice.name)
  | none, s :: rest, given =>
    match Argument.of s with
    | .escape => do
      let given ← given.addWords g.maxWords rest
      return (given, none)
    | .named name value => do
      let (given, pending) ← g.readNamed name value given
      readFrom g pending rest given
    | .letters cs => do
      let (given, pending) ← g.readLetters cs given
      readFrom g pending rest given
    | .word text =>
      if g.commands.contains text then .ok (given, some (text, rest))
      else do
        let given ← given.addWords g.maxWords [text]
        readFrom g none rest given

/-- Reads arguments. -/
def read (g : Grammar) (args : List String) : Except UsageFault (Given × Following) :=
  g.readFrom none args {}

end Grammar
end ConversationSearch.CommandLine
