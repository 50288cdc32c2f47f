import CodeSearch.Text.Class
import CodeSearch.Text.Pieces

/-! # Options on a command line

Arguments are words and options. An option may be shortened as long as only one option begins that
way; a value stands behind an equals sign, behind the letter of a short option, or in the next
argument. Two dashes end the options. Numbers below zero and texts with spaces are words. Flags have
no short names.
-/

namespace CodeSearch.CommandLine

/-- What an option does: it asks for help, or stands for itself, or takes a value that passes a
test. -/
inductive OptionKind where
  | help
  | flag
  | value (placeholder : String) (accepts : String → Bool)

/-- An option with all of its names and its meaning. -/
structure OptionRule where
  key : String
  names : List String
  kind : OptionKind
  meaning : String

/-- Why the arguments lead to no command. -/
inductive Exit where
  | help
  | usage
  deriving DecidableEq

def Exit.code : Exit → Nat
  | help => 0
  | usage => 2

/-- An argument by its form. A value may be attached to an option. -/
inductive Token where
  | word (text : String)
  | dashes
  | known (rule : OptionRule) (name : String) (attached : Option String)
  | unknown

def ruleOf? (rules : List OptionRule) (name : String) : Option OptionRule :=
  rules.find? fun rule => rule.names.contains name

def isDigit (c : Char) : Bool := (Text.digitValue? c).isSome

/-- A number below zero without an exponent; one line end may follow. -/
def isNegativeNumber (argument : List Char) : Bool :=
  match Text.dropLineEnd argument with
  | '-' :: rest =>
    let (whole, rest) := rest.span isDigit
    match rest with
    | [] => !whole.isEmpty
    | '.' :: digits => !digits.isEmpty && digits.all isDigit
    | _ => false
  | _ => false

/-- A text in front of the first equals sign and, if there is one, the text behind it. -/
def splitValue (argument : List Char) : List Char × Option String :=
  let (name, rest) := argument.span (· != '=')
  (name, rest.head?.map fun _ => String.ofList (rest.drop 1))

/-- The options that a shortened long name may stand for. -/
def longCandidates (rules : List OptionRule) (argument : List Char) : List Token :=
  let (part, attached) := splitValue argument
  rules.flatMap fun rule =>
    (rule.names.filter fun name => Text.startsWith part name.toList).map fun name =>
      .known rule name attached

/-- The short option with whose letter an argument begins; the rest is its value. -/
def shortCandidates (rules : List OptionRule) (argument : List Char) : List Token :=
  let name := String.ofList (argument.take 2)
  (ruleOf? rules name).toList.map fun rule =>
    .known rule name (some (String.ofList (argument.drop 2)))

def candidates (rules : List OptionRule) (argument : List Char) : List Token :=
  if Text.startsWith ['-', '-'] argument then longCandidates rules argument
  else shortCandidates rules argument

/-- The option that an argument names in full, alone or with a value behind an equals sign. -/
def fullName? (rules : List OptionRule) (argument : List Char) : Option Token :=
  let whole := String.ofList argument
  let (name, attached) := splitValue argument
  match ruleOf? rules whole, attached with
  | some rule, _ => some (.known rule whole none)
  | none, some _ =>
    (ruleOf? rules (String.ofList name)).map fun rule => .known rule (String.ofList name) attached
  | none, none => none

/-- The form of an argument that begins with a dash and is longer. -/
def dashedToken (rules : List OptionRule) (argument : List Char) : Except Exit Token :=
  match fullName? rules argument, candidates rules argument with
  | some token, _ => .ok token
  | none, [token] => .ok token
  | none, [] =>
    if isNegativeNumber argument || argument.contains ' ' then .ok (.word (String.ofList argument))
    else .ok .unknown
  | none, _ => .error .usage

/-- The form of an argument. -/
def token (rules : List OptionRule) (argument : String) : Except Exit Token :=
  match argument.toList with
  | '-' :: c :: rest => dashedToken rules ('-' :: c :: rest)
  | _ => .ok (.word argument)

/-- The forms of all arguments; behind two dashes there are only words. -/
def tokens (rules : List OptionRule) : List String → Except Exit (List Token)
  | [] => .ok []
  | argument :: rest =>
    if argument = "--" then .ok (.dashes :: rest.map .word)
    else do
      let first ← token rules argument
      return first :: (← tokens rules rest)

/-- What was read of the arguments: words in their order, and options with their values in theirs. A
word may be left out. -/
structure Parsed where
  words : List (Option String) := []
  settings : List (String × String) := []
  /-- Something was given that has no place. -/
  stray : Bool := false

namespace Parsed

def addWord (parsed : Parsed) (word : Option String) : Parsed :=
  { parsed with words := parsed.words ++ [word] }

def addSetting (parsed : Parsed) (key value : String) : Parsed :=
  { parsed with settings := parsed.settings ++ [(key, value)] }

def markStray (parsed : Parsed) : Parsed := { parsed with stray := true }

/-- All values of an option. -/
def values (parsed : Parsed) (key : String) : List String :=
  (parsed.settings.filter fun setting => setting.1 == key).map Prod.snd

/-- The last value of an option counts. -/
def value? (parsed : Parsed) (key : String) : Option String := (parsed.values key).getLast?

end Parsed

/-- How letters behind that of the short option for help are taken: as further short options, up to
one that takes a value. -/
def helpCluster (rules : List OptionRule) (valueFollows : Bool) : List Char → Exit
  | [] => .help
  | c :: rest =>
    match ruleOf? rules (String.ofList ['-', c]) with
    | none => .usage
    | some { kind := .value _ _, .. } => if rest.isEmpty && !valueFollows then .usage else .help
    | some _ => helpCluster rules valueFollows rest

/-- What a text that is attached to an option for help leads to. -/
def helpWith (rules : List OptionRule) (name attached : String)
    (valueFollows : Bool) : Exit :=
  if attached.isEmpty || Text.startsWith ['-', '-'] name.toList then .usage
  else helpCluster rules valueFollows attached.toList

/-- The word that an argument behind two dashes gives. Two dashes again, unless they stand at the
first ones, leave the word out. -/
def lateWord (text : String) : Option String := if text = "--" then none else some text

/-- Takes a value of an option if it passes the option's test. -/
def takeValue (parsed : Parsed) (rule : OptionRule) (accepts : String → Bool) (value : String) :
    Except Exit Parsed :=
  if accepts value then .ok (parsed.addSetting rule.key value) else .error .usage

/-- Takes an option that needs nothing from the arguments behind it; of an option that does nothing
is taken. -/
def takeAlone (rules : List OptionRule) (parsed : Parsed) (rule : OptionRule) (name : String)
    (attached : Option String) (valueFollows : Bool) : Except Exit (Option Parsed) :=
  match rule.kind, attached with
  | .help, none => .error .help
  | .flag, none => .ok (some (parsed.addSetting rule.key ""))
  | .help, some attached => .error (helpWith rules name attached valueFollows)
  | .flag, some _ => .error .usage
  | .value _ accepts, some attached => (takeValue parsed rule accepts attached).map some
  | .value _ _, none => .ok none

/-- Takes all arguments of a command that expects so many words. Two dashes belong to a word beside
them. -/
def consume (rules : List OptionRule) : Nat → Parsed → List Token → Except Exit Parsed
  | left, parsed, [] => if left = 0 && !parsed.stray then .ok parsed else .error .usage
  | left + 1, parsed, .word text :: .dashes :: rest =>
    consume rules left (parsed.addWord (some text)) rest
  | left + 1, parsed, .word text :: rest => consume rules left (parsed.addWord (lateWord text)) rest
  | 0, parsed, .word _ :: rest => consume rules 0 parsed.markStray rest
  | left + 1, parsed, .dashes :: .word text :: rest =>
    consume rules left (parsed.addWord (some text)) rest
  | left, parsed, .dashes :: rest => consume rules left parsed.markStray rest
  | left, parsed, .unknown :: rest => consume rules left parsed.markStray rest
  | left, parsed, .known rule name attached :: .word text :: rest =>
    match takeAlone rules parsed rule name attached true with
    | .error exit => .error exit
    | .ok (some parsed) => consume rules left parsed (.word text :: rest)
    | .ok none =>
      match rule.kind with
      | .value _ accepts =>
        match takeValue parsed rule accepts text with
        | .error exit => .error exit
        | .ok parsed => consume rules left parsed rest
      | _ => .error .usage
  | left, parsed, .known rule name attached :: rest =>
    match takeAlone rules parsed rule name attached false with
    | .error exit => .error exit
    | .ok (some parsed) => consume rules left parsed rest
    | .ok none => .error .usage

end CodeSearch.CommandLine
