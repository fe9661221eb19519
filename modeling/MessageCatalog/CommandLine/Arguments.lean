import MessageCatalog.Config.Basic

/-!
The words of a command line. A command's name comes first; behind it stand switches, and
parameters with values of their own. Nothing is given twice.
-/

namespace MessageCatalog.CommandLine

/-- Why a command line is not carried out as a command. -/
inductive Refusal where
  | unknownCommand
  | unknownArgument
  | repeated
  /-- A parameter has no value, or an empty one where it names a path. -/
  | missingValue
  | needlessValue
  | help
  | version
  deriving DecidableEq, Repr

inductive Switch where
  | verbose
  | enforceDescriptions
  | json
  deriving DecidableEq, Repr

def Switch.name : Switch → String
  | .verbose => "verbose"
  | .enforceDescriptions => "enforce-descriptions"
  | .json => "json"

def Switch.all : List Switch :=
  [.verbose, .enforceDescriptions, .json]

inductive Parameter where
  | root
  | messagesDir
  | fileName
  | space
  | source
  | outDir
  deriving DecidableEq, Repr

def Parameter.name : Parameter → String
  | .root => "source-root"
  | .messagesDir => "messages-dir"
  | .fileName => "file-name"
  | .space => "namespace"
  | .source => "module-source-name"
  | .outDir => "out-dir"

def Parameter.all : List Parameter :=
  [.root, .messagesDir, .fileName, .space, .source, .outDir]

def Parameter.isPath : Parameter → Bool
  | .root => true
  | .outDir => true
  | _ => false

/-! ### Words -/

inductive Word where
  | dashes
  | long (name : String) (value : Option String)
  | letters (letters : List Char)
  | plain (text : String)
  deriving DecidableEq, Repr

def longWord (body : List Char) : Word :=
  match body.span (· != '=') with
  | (name, '=' :: value) => .long (String.ofList name) (some (String.ofList value))
  | (name, _) => .long (String.ofList name) none

def Word.ofText (text : String) : Word :=
  match text.toList with
  | ['-', '-'] => .dashes
  | '-' :: '-' :: body => longWord body
  | ['-'] => .plain text
  | '-' :: behind => .letters behind
  | _ => .plain text

/-! ### What is given -/

structure Given where
  switches : List Switch
  values : List (Parameter × String)
  deriving DecidableEq, Repr

namespace Given

def empty : Given :=
  ⟨[], []⟩

def turnOn (g : Given) (s : Switch) : Except Refusal Given :=
  if g.switches.contains s then .error .repeated else .ok { g with switches := s :: g.switches }

def put (g : Given) (p : Parameter) (value : String) : Except Refusal Given :=
  if (g.values.lookup p).isSome then .error .repeated
  else if p.isPath && value.isEmpty then .error .missingValue
  else .ok { g with values := (p, value) :: g.values }

abbrev Pending := Option (Parameter × Option String)

/-- Takes up a parameter when the next word does not belong to it. -/
def settle (g : Given) : Pending → Except Refusal Given
  | none => .ok g
  | some (_, none) => .error .missingValue
  | some (p, some value) => g.put p value

def takeLetters (full : Bool) (g : Given) (pending : Pending) :
    List Char → Except Refusal (Given × Pending)
  | [] => .ok (g, pending)
  | 'h' :: _ => do
      let _ ← g.settle pending
      .error .help
  | 'v' :: rest =>
      if full then do
        let settled ← g.settle pending
        takeLetters full (← settled.turnOn .verbose) none rest
      else .error .unknownArgument
  | _ :: _ => .error .unknownArgument

/-- Takes up two dashes with a name. A command that is not full has no switches or parameters but
for the help. -/
def takeLong (full : Bool) (g : Given) (pending : Pending) (name : String)
    (value : Option String) : Except Refusal (Given × Pending) :=
  if name == "help" then
    if value.isSome then .error .needlessValue
    else do
      let _ ← g.settle pending
      .error .help
  else if !full then .error .unknownArgument
  else
    match Switch.all.find? (fun s => s.name == name),
        Parameter.all.find? (fun p => p.name == name) with
    | some s, _ =>
        if value.isSome then .error .needlessValue
        else do
          let settled ← g.settle pending
          return (← settled.turnOn s, none)
    | none, some p => do
        let settled ← g.settle pending
        match value with
        | some text => return (← settled.put p text, none)
        | none => return (settled, some (p, none))
    | none, none => .error .unknownArgument

def takeWords (full : Bool) (g : Given) (pending : Pending) :
    List String → Except Refusal Given
  | [] => g.settle pending
  | text :: rest =>
      match Word.ofText text with
      | .dashes => if rest.isEmpty then g.settle pending else .error .unknownArgument
      | .long name value => do
          let (next, left) ← g.takeLong full pending name value
          next.takeWords full left rest
      | .letters letters => do
          let (next, left) ← g.takeLetters full pending letters
          next.takeWords full left rest
      | .plain text =>
          match pending with
          | some (p, none) => g.takeWords full (some (p, some text)) rest
          | _ => .error .unknownArgument

end Given

/-! ### Commands -/

structure ExtractArguments where
  root : String
  verbose : Bool
  outDir : Option String
  json : Bool
  overrides : Overrides
  deriving DecidableEq, Repr

def ExtractArguments.ofGiven (g : Given) : ExtractArguments :=
  { root := (g.values.lookup .root).getD "."
    verbose := g.switches.contains .verbose
    outDir := g.values.lookup .outDir
    json := g.switches.contains .json
    overrides :=
      { messagesDir := g.values.lookup .messagesDir
        fileName := g.values.lookup .fileName
        idSpace := g.values.lookup .space
        enforceDescriptions := g.switches.contains .enforceDescriptions
        source := g.values.lookup .source } }

inductive Command where
  | extract (arguments : ExtractArguments)
  | init
  | serve
  deriving DecidableEq, Repr

def commandNames : List String :=
  ["extract", "init", "serve", "help"]

/-- Help on a command: there is one on every command, and none on what follows it. -/
def helpOn : List String → Refusal
  | [] => .help
  | [name] => if commandNames.contains name then .help else .unknownCommand
  | _ => .unknownCommand

def Word.refusal (rest : List String) : Word → Option Refusal
  | .dashes =>
      match rest with
      | [] => none
      | name :: _ => some (if commandNames.contains name then .unknownArgument else .unknownCommand)
  | .long name value =>
      if name == "help" || name == "version" then
        if value.isSome then some .needlessValue
        else some (if name == "help" then .help else .version)
      else some .unknownArgument
  | .letters ('h' :: _) => some .help
  | .letters ('V' :: _) => some .version
  | .letters _ => some .unknownArgument
  | .plain _ => some .unknownCommand

/-- The command that a command line asks for; no words ask for none. -/
def parse : List String → Except Refusal (Option Command)
  | [] => .ok none
  | "extract" :: rest => do
      return some (.extract (.ofGiven (← Given.empty.takeWords true none rest)))
  | "init" :: rest => do
      let _ ← Given.empty.takeWords false none rest
      return some .init
  | "serve" :: rest => do
      let _ ← Given.empty.takeWords false none rest
      return some .serve
  | "help" :: rest => .error (helpOn rest)
  | word :: rest =>
      match (Word.ofText word).refusal rest with
      | some refusal => .error refusal
      | none => .ok none

end MessageCatalog.CommandLine
