import BlockTemplate.Text.Basic
import BlockTemplate.Text.Digit
import BlockTemplate.Text.Words

/-!
# Words of a command line

Each word is a plain one, an option, or the separator, after which all words are plain. An option
may be cut short as long as no other one starts like it, and its value may stand behind an equals
sign.
-/

namespace BlockTemplate.CommandLine

/-- The options of all commands. -/
inductive OptionName where
  | help | version | logLevel | varsFile | assignment | parsedBlock | shownBlock | noCache
  | configFile | clear
deriving DecidableEq, Repr

namespace OptionName

/-- The long spelling of an option. -/
def spelling : OptionName → String
  | help => "--help"
  | version => "--version"
  | logLevel => "--log-level"
  | varsFile => "--vars"
  | assignment => "--set"
  | parsedBlock => "--parse"
  | shownBlock => "--block"
  | noCache => "--no-cache"
  | configFile => "--config"
  | clear => "--clear"

/-- The letter of an option that has one. -/
def letter? : OptionName → Option Char
  | help => some 'h'
  | version => some 'v'
  | _ => none

/-- Whether a value belongs to the option. -/
def takesValue : OptionName → Bool
  | help | version | noCache | clear => false
  | _ => true

end OptionName

/-- What a word is. -/
inductive Word where
  | plain (text : String)
  | separator
  | option (name : OptionName) (value : Option String)
  /-- it looks like an option, but there is none like it -/
  | unknown
  /-- an option with something attached to it that it cannot take -/
  | malformed
deriving DecidableEq, Repr

/-- How a command line ends that is no command: it asks for help or for the version, or it is
    wrong. -/
inductive Usage where
  | help
  | version
  | wrong
deriving DecidableEq, Repr

/-- An option with what is attached to it. -/
def Word.ofOption (name : OptionName) (attached : Option (List Char)) : Word :=
  match attached with
  | none => .option name none
  | some value => if name.takesValue then .option name (some (String.ofList value)) else .malformed

/-- The option with a letter. -/
def withLetter? (known : List OptionName) (c : Char) : Option OptionName :=
  known.find? fun name => name.letter? == some c

/-- Whether what follows a letter option in its word is in order: more letters of options. An equals
    sign in front of them has no meaning, but must not stand alone. -/
def isLetterRow (known : List OptionName) : List Char → Bool
  | ['='] => false
  | '=' :: letters | letters => letters.all fun c => (withLetter? known c).isSome

/-- Digits, and perhaps a line break. -/
def isDigitRow (s : List Char) : Bool :=
  match s.dropWhile isDigit with
  | [] | ['\n'] => (s.head?.map isDigit).getD false
  | _ => false

/-- Whether a word is a negative number. A line break may follow. -/
def isNegativeNumber : List Char → Bool
  | '-' :: digits =>
    match digits.dropWhile isDigit with
    | '.' :: places => isDigitRow places
    | _ => isDigitRow digits
  | _ => false

/-- What a word with a dash is that is no option. -/
def Word.ofDashed (chars : List Char) : Word :=
  if isNegativeNumber chars || chars.contains ' ' then .plain (String.ofList chars) else .unknown

/-- What a word with two dashes is. It must not be short for several options. -/
def longOption (known : List OptionName) (chars : List Char) : Except Usage Word :=
  let front := chars.takeWhile (· != '=')
  let attached := match chars.dropWhile (· != '=') with
    | [] => none
    | _ :: value => some value
  -- a full spelling counts before all that start like it
  match known.filter (fun name => name.spelling.toList == front) with
  | name :: _ => .ok (.ofOption name attached)
  | [] =>
    match known.filter (fun name => startsWith front name.spelling.toList) with
    | [] => .ok (.ofDashed chars)
    | [name] => .ok (.ofOption name attached)
    | _ => .error .wrong

/-- What a word before the separator is. -/
def classify (known : List OptionName) (text : String) : Except Usage Word :=
  match text.toList with
  | '-' :: '-' :: rest => longOption known ('-' :: '-' :: rest)
  | '-' :: c :: rest =>
    match withLetter? known c with
    | some name => .ok (if isLetterRow known rest then .option name none else .malformed)
    | none => .ok (.ofDashed ('-' :: c :: rest))
  | _ => .ok (.plain text)

/-- What the words are, given the options that are known. -/
def classifyAll (known : List OptionName) : List String → Except Usage (List Word)
  | [] => .ok []
  | text :: rest =>
    -- behind the separator nothing is an option
    if text = "--" then .ok (.separator :: rest.map .plain)
    else do
      let word ← classify known text
      let words ← classifyAll known rest
      return word :: words

end BlockTemplate.CommandLine
