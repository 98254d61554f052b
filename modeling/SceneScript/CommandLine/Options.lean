import SceneScript.CommandLine.SwitchArgument
import SceneScript.Text.Numeral
import SceneScript.Text.Quoted

/-!
# Options of the command line

The words of a command line are first told apart and then used up in order.

* A word that starts with a dash and spells a switch, the start of a long switch, or a short
  switch with more text behind it is a switch; two dashes alone end the switches; a negative
  number, a lone dash and a word with a space are arguments like any other.
* A switch that takes an argument takes it from its own word (`-tX`, `-t=X`, `--tables=X`) or
  else the next word, which must be an argument.  What is attached to a short switch that takes
  none is read as further short switches, the first of which may stand behind an equals sign
  (`-h=t`).
* The first argument that no switch takes is the input; what is left over is unrecognized.

Of a switch given twice the last one counts.
-/

namespace SceneScript.CommandLine

/-- The switches. -/
inductive Switch where
  | help
  | tables
  | output
  | scene
  | listing
  | verbose
  deriving DecidableEq

namespace Switch

/-- All switches, in the order in which they are shown. -/
def all : List Switch := [.help, .tables, .output, .scene, .listing, .verbose]

/-- How a switch may be spelled. -/
def spellings : Switch → List String
  | .help => ["-h", "--help"]
  | .tables => ["-t", "--tables"]
  | .output => ["-o", "--output"]
  | .scene => ["-s", "--scene"]
  | .listing => ["--listing"]
  | .verbose => ["--verbose"]

/-- Whether a switch takes an argument. -/
def takesArgument : Switch → Bool
  | .tables | .output | .scene => true
  | .help | .listing | .verbose => false

/-- A switch as messages name it. -/
def label (s : Switch) : String := "/".intercalate s.spellings

/-- Every spelling with its switch. -/
def dictionary : List (String × Switch) :=
  all.flatMap fun s => s.spellings.map fun spelling => (spelling, s)

/-- The switch of a spelling. -/
def ofSpelling? (spelling : String) : Option Switch := dictionary.lookup spelling

end Switch

/-- A wrong use of the command line. -/
inductive UsageError where
  | ambiguous (word : String) (matching : List String)
  | expectedArgument (switch : Switch)
  | ignoredArgument (switch : Switch) (argument : String)
  | required (names : List String)
  | unrecognized (words : List String)

/-- What is told about a wrong use. -/
def UsageError.message : UsageError → String
  | .ambiguous word matching =>
    "ambiguous option: " ++ word ++ " could match " ++ ", ".intercalate matching
  | .expectedArgument switch => "argument " ++ switch.label ++ ": expected one argument"
  | .ignoredArgument switch argument =>
    "argument " ++ switch.label ++ ": ignored explicit argument " ++ Text.quoted argument
  | .required names => "the following arguments are required: " ++ ", ".intercalate names
  | .unrecognized words => "unrecognized arguments: " ++ " ".intercalate words

/-! ## Telling words apart -/

/-- What a word is. -/
inductive Word where
  | argument
  | separator
  /-- A switch with the text that is attached to it in its word, if any. -/
  | switch (switch : Switch) (spelling : String) (attached : Option (List Char))
  | unknownSwitch

/-- A word up to its first equals sign, and what is behind that if there is one. -/
def splitAssignment (word : String) : String × Option (List Char) :=
  let chars := word.toList
  (String.ofList (chars.takeWhile (· != '=')), (chars.dropWhile (· != '=')).tail?)

/-- Characters without the line end that may stand behind them. -/
def withoutLineEnd (chars : List Char) : List Char :=
  if chars.getLast? == some '\n' then chars.dropLast else chars

/-- Whether a word is a negative number, whole or with a decimal point; a line end may stand
behind it. -/
def isNegativeNumber (word : String) : Bool :=
  match withoutLineEnd word.toList with
  | '-' :: digits =>
    let afterWhole := digits.dropWhile Text.isDecimalDigit
    match afterWhole with
    | [] => !digits.isEmpty
    | '.' :: fraction => !fraction.isEmpty && fraction.all Text.isDecimalDigit
    | _ => false
  | _ => false

/-- A word that spells no switch exactly: the start of a long switch, or a short one with text
behind it. -/
def classifyInexact (word : String) : Except UsageError Word :=
  let (name, attached) := splitAssignment word
  let candidates : List (Switch × String × Option (List Char)) :=
    match word.toList with
    | '-' :: '-' :: _ =>
      (Switch.dictionary.filter fun entry => name.toList.isPrefixOf entry.1.toList).map fun entry =>
        (entry.2, entry.1, attached)
    | '-' :: letter :: rest =>
      let short := String.ofList ['-', letter]
      ((Switch.ofSpelling? short).map fun s => (s, short, some rest)).toList
    | _ => []
  match candidates with
  | [] =>
    if isNegativeNumber word || ' ' ∈ word.toList then .ok .argument else .ok .unknownSwitch
  | [(s, spelling, attached)] => .ok (.switch s spelling attached)
  | several => .error (.ambiguous word (several.map fun candidate => candidate.2.1))

/-- What a word is, if no separator stands before it. -/
def classify (word : String) : Except UsageError Word :=
  if word == "--" then .ok .separator
  else if !word.startsWith "-" || word == "-" then .ok .argument
  else
    let (name, attached) := splitAssignment word
    match Switch.ofSpelling? word, Switch.ofSpelling? name with
    | some s, _ => .ok (.switch s word none)
    | none, some s => .ok (.switch s name attached)
    | none, none => classifyInexact word

/-- What each word of a command line is; after a separator all are arguments. -/
def classifyAll : List String → Except UsageError (List (String × Word))
  | [] => .ok []
  | word :: rest => do
    match ← classify word with
    | .separator => return (word, .separator) :: rest.map fun w => (w, .argument)
    | kind => return (word, kind) :: (← classifyAll rest)

/-! ## Using words up -/

/-- What a command line asks for. -/
structure Options where
  input : Option String := none
  tables : Option SwitchArgument := none
  output : Option SwitchArgument := none
  scene : Option SwitchArgument := none
  listing : Bool := false
  verbose : Bool := false
  /-- Words that nothing took. -/
  extras : List String := []

/-- Why a command line is not carried out. -/
inductive Refusal where
  | help
  | usage (error : UsageError)

namespace Options

/-- Carries out a switch. -/
def apply (o : Options) (switch : Switch) (argument : SwitchArgument) : Except Refusal Options :=
  match switch with
  | .help => .error .help
  | .tables => .ok { o with tables := some argument }
  | .output => .ok { o with output := some argument }
  | .scene => .ok { o with scene := some argument }
  | .listing => .ok { o with listing := true }
  | .verbose => .ok { o with verbose := true }

/-- Keeps words that nothing took. -/
def leave (o : Options) (words : List String) : Options := { o with extras := o.extras ++ words }

end Options

/-- What a word with a switch comes to: switches with their arguments, in order, and whether the
next word was used up as well. -/
structure Use where
  actions : List (Switch × SwitchArgument)
  tookNext : Bool := false

/-- Reads a switch with nothing attached to it; `next` is the next word if that is an argument. -/
def useAlone (next : Option String) (switch : Switch) : Except UsageError Use :=
  if switch.takesArgument then
    match next with
    | some argument => .ok { actions := [(switch, .word argument)], tookNext := true }
    | none => .error (.expectedArgument switch)
  else .ok { actions := [(switch, .empty)] }

/-- Reads a switch with text attached to it.  Unless the switch takes an argument, the text has
to spell further short switches, and only a short switch can have those. -/
def useAttached (next : Option String) (switch : Switch) (isShort : Bool) :
    List Char → Except UsageError Use
  | [] =>
    if switch.takesArgument then .ok { actions := [(switch, .ofText "")] }
    else .error (.ignoredArgument switch "")
  | letter :: rest =>
    let text := String.ofList (letter :: rest)
    if switch.takesArgument then .ok { actions := [(switch, .ofText text)] }
    else match isShort, Switch.ofSpelling? (String.ofList ['-', letter]) with
      | true, some further => do
        let use ← match rest with
          | [] => useAlone next further
          | _ :: _ => useAttached next further true rest
        return { use with actions := (switch, .empty) :: use.actions }
      | _, _ => .error (.ignoredArgument switch text)

/-- Reads a switch with what is attached to it. -/
def useSwitch (next : Option String) (switch : Switch) (isShort : Bool)
    (attached : Option (List Char)) : Except UsageError Use :=
  match attached with
  | none => useAlone next switch
  | some chars => useAttached next switch isShort chars

/-- Takes the input from words that hold no switch any more: an argument, with a separator
before or after it. -/
def takeInput (o : Options) (words : List (String × Word)) : Options :=
  let leave (o : Options) (rest : List (String × Word)) := o.leave (rest.map Prod.fst)
  match o.input, words with
  | none, (_, .separator) :: (word, .argument) :: rest => leave { o with input := some word } rest
  | none, (word, .argument) :: (_, .separator) :: rest => leave { o with input := some word } rest
  | none, (word, .argument) :: rest => leave { o with input := some word } rest
  | _, rest => leave o rest

/-- Whether a word is a switch, known or not. -/
def Word.isSwitch : Word → Bool
  | .switch .. | .unknownSwitch => true
  | .argument | .separator => false

/-- The next word, if it is an argument. -/
def nextArgument : List (String × Word) → Option String
  | (word, .argument) :: _ => some word
  | _ => none

/-- Uses words up from the first on. -/
def useWords (o : Options) : List (String × Word) → Except Refusal Options
  | [] => .ok o
  | (word, kind) :: rest =>
    match kind with
    | .unknownSwitch => useWords (o.leave [word]) rest
    | .switch s spelling attached =>
      match useSwitch (nextArgument rest) s (!spelling.startsWith "--") attached with
      | .error e => .error (.usage e)
      | .ok use => do
        let o ← use.actions.foldlM (fun o action => o.apply action.1 action.2) o
        if use.tookNext then
          match rest with
          | [] => .ok o
          | _ :: after => useWords o after
        else useWords o rest
    | .argument | .separator =>
      if rest.any fun entry => entry.2.isSwitch then
        match o.input with
        | none => useWords { o with input := some word } rest
        | some _ => useWords (o.leave [word]) rest
      else .ok (takeInput o ((word, kind) :: rest))

/-- What a command line asks for, or why it is not carried out: input and tables have to be
given, and no word may be left over. -/
def parseOptions (words : List String) : Except Refusal Options := do
  let classified ← (classifyAll words).mapError .usage
  let o ← useWords {} classified
  let missing :=
    (if o.input.isNone then ["input"] else []) ++
      (if o.tables.isNone then [Switch.tables.label] else [])
  if !missing.isEmpty then throw (.usage (.required missing))
  if !o.extras.isEmpty then throw (.usage (.unrecognized o.extras))
  return o

end SceneScript.CommandLine
